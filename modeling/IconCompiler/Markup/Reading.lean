import IconCompiler.Markup.Event

/-!
# Reading a source

`Reading.ofText` turns a source into its events, each with the byte offset at which it starts, and
says how the source ends: complete, with the elements that are still open, or broken by a fault.
A byte order mark at the front is no part of the source and is not counted.
-/

namespace IconCompiler.Markup

/-- An event with the byte offset at which it starts. -/
structure Located where
  offset : Nat
  event : Event
  deriving Repr, DecidableEq

/-- How a source ends. -/
inductive Ending where
  /-- All of it was read; these elements are open, the innermost first. -/
  | complete (opened : List String)
  /-- A fault at a byte offset ended the reading. -/
  | broken (fault : Fault) (offset : Nat)
  deriving Repr, DecidableEq

/-- The events of a source and how it ends. -/
structure Reading where
  events : List Located
  ending : Ending
  deriving Repr, DecidableEq

/-- The open names after an event, the innermost first. -/
def Event.openedAfter (e : Event) (opened : List String) : List String :=
  match e with
  | .start tag => tag.name :: opened
  | .close _ => opened.tail
  | _ => opened

namespace Reading

/-- One more event at the front. -/
def cons (offset : Nat) (e : Event) (r : Reading) : Reading :=
  ⟨⟨offset, e⟩ :: r.events, r.ending⟩

/-- Reads a text at byte `pos` while the elements `opened` are open, the innermost first. -/
def run (opened : List String) (pos : Nat) (cs : List Char) : Reading :=
  match cs with
  | [] => ⟨[], .complete opened⟩
  | c :: rest =>
    if c = '<' then
      match h : scanMarkup opened rest with
      | .fault f shift => ⟨[], .broken f (pos + shift)⟩
      | .event e size rest' =>
        have : rest'.length ≤ rest.length := scanMarkup_length h
        .cons pos e (run (e.openedAfter opened) (pos + size) rest')
    else
      -- the text up to the next angle bracket is one event
      let text := c :: rest.takeWhile (· ≠ '<')
      have : (rest.dropWhile (· ≠ '<')).length ≤ rest.length := dropWhile_length _ rest
      .cons pos (.text (String.ofList text))
        (run opened (pos + byteLength text) (rest.dropWhile (· ≠ '<')))
termination_by cs.length
decreasing_by all_goals simp only [List.length_cons]; omega

/-- A text without a byte order mark at its front. -/
def dropByteOrderMark : List Char → List Char
  | [] => []
  | c :: cs => if c = '\uFEFF' then cs else c :: cs

/-- Reads a source. -/
def ofText (text : String) : Reading :=
  run [] 0 (dropByteOrderMark text.toList)

end Reading

end IconCompiler.Markup
