import IconCompiler.Proofs.Markup.FaultPlaces

/-!
# Parsing, turn by turn

A source is parsed in turns: in each of them the reader finds an event, and the document under
construction takes it in. Each of the two keeps its own record of what is open. The reader holds
names, which it compares closing tags with; the document holds elements, which nodes are put into.
`ParseState.turn` is one turn, and parsing a source is taking turns until one of them ends it. The
two records agree after every turn, so that a document never lacks the element that a closing tag
closes.

## Key results

- `ofReading_eq_iff`: parsing gives what the last of the turns gives
- `Reachable.agrees`: after every turn the same names are open for the reader and in the document
- `open_names_of_parse`: what follows for closing tags and for elements that are left open
-/

namespace IconCompiler.Markup

open Reading

/-! ## The reader between two events -/

/-- The reader between two events. -/
structure ReaderState where
  /-- The names that it holds open, the innermost first. -/
  opened : List String
  /-- The byte offset of what comes next. -/
  offset : Nat
  /-- The text that is still to be read. -/
  rest : List Char

/-- What the reader finds next. -/
inductive Finding where
  /-- An event, and the reader behind it. -/
  | event (e : Event) (behind : ReaderState)
  /-- A construct that cannot be read. -/
  | fault (f : Fault) (offset : Nat)
  /-- The end of the text. -/
  | atEnd

namespace ReaderState

/-- What the reader finds next: a construct, or a text up to the next angle bracket. -/
def next (r : ReaderState) : Finding :=
  match r.rest with
  | [] => .atEnd
  | c :: cs =>
    if c = '<' then
      match scanMarkup r.opened cs with
      | .event e size rest => .event e ⟨e.openedAfter r.opened, r.offset + size, rest⟩
      | .fault f shift => .fault f (r.offset + shift)
    else
      let text := c :: cs.takeWhile (· ≠ '<')
      .event (.text (String.ofList text))
        ⟨r.opened, r.offset + byteLength text, cs.dropWhile (· ≠ '<')⟩

/-- All that the reader is still going to find. -/
def reading (r : ReaderState) : Reading :=
  run r.opened r.offset r.rest

/-- At an angle bracket the reader finds a construct, or one that cannot be read. -/
private theorem next_construct (opened : List String) (offset : Nat) (cs : List Char) :
    next ⟨opened, offset, '<' :: cs⟩ =
      match scanMarkup opened cs with
      | .event e size rest => .event e ⟨e.openedAfter opened, offset + size, rest⟩
      | .fault f shift => .fault f (offset + shift) := by
  simp only [next, if_true]

/-- Anywhere else it finds a text up to the next angle bracket. -/
private theorem next_text {c : Char} (hc : c ≠ '<') (opened : List String) (offset : Nat)
    (cs : List Char) :
    next ⟨opened, offset, c :: cs⟩ =
      .event (.text (String.ofList (c :: cs.takeWhile (· ≠ '<'))))
        ⟨opened, offset + byteLength (c :: cs.takeWhile (· ≠ '<')), cs.dropWhile (· ≠ '<')⟩ :=
  if_neg hc

/-- What the reader finds next is what stands at the front of its reading. -/
private theorem reading_eq (r : ReaderState) :
    r.reading =
      match r.next with
      | .event e behind => .cons r.offset e behind.reading
      | .fault f offset => ⟨[], .broken f offset⟩
      | .atEnd => ⟨[], .complete r.opened⟩ := by
  obtain ⟨opened, offset, rest⟩ := r
  cases rest with
  | nil => exact run_nil opened offset
  | cons c cs =>
    -- the first character tells a construct from a text
    by_cases hc : c = '<'
    · subst hc
      rw [next_construct]
      cases hscan : scanMarkup opened cs with
      | event e size rest => exact run_event hscan
      | fault f shift => exact run_fault hscan
    · rw [next_text hc]
      exact run_text hc

/-- Behind an event the names are open that it leaves open, and less of the text is left. -/
private theorem behind_of_next {r behind : ReaderState} {e : Event} (h : r.next = .event e behind) :
    behind.opened = e.openedAfter r.opened ∧ behind.rest.length < r.rest.length := by
  obtain ⟨opened, offset, rest⟩ := r
  cases rest with
  | nil => cases h
  | cons c cs =>
    by_cases hc : c = '<'
    · subst hc
      rw [next_construct] at h
      cases hscan : scanMarkup opened cs with
      | event e' size rest =>
        rw [hscan] at h
        cases h
        -- a construct takes the bracket at least
        exact ⟨rfl, Nat.lt_succ_of_le (scanMarkup_length hscan)⟩
      | fault f shift =>
        rw [hscan] at h
        cases h
    · rw [next_text hc] at h
      cases h
      -- a text takes its first character at least
      exact ⟨rfl, Nat.lt_succ_of_le (dropWhile_length _ cs)⟩

/-- The reader is at the end if no text is left. -/
private theorem next_eq_atEnd_iff {r : ReaderState} : r.next = .atEnd ↔ r.rest = [] := by
  obtain ⟨opened, offset, rest⟩ := r
  cases rest with
  | nil => exact iff_of_true rfl rfl
  | cons c cs =>
    refine iff_of_false ?_ (List.cons_ne_nil c cs)
    by_cases hc : c = '<'
    · subst hc
      rw [next_construct]
      cases scanMarkup opened cs <;> nofun
    · rw [next_text hc]
      nofun

/-- The reader finds nothing that it cannot deliver. -/
private theorem isDelivered_of_next {r r' : ReaderState} {e : Event} (h : r.next = .event e r') :
    e.IsDelivered r.opened := by
  have hdelivers : Delivers r.opened r.reading.events := delivers_run r.opened r.offset r.rest
  rw [reading_eq, h] at hdelivers
  exact hdelivers.1

end ReaderState

/-! ## Turns -/

/-- A source that is being parsed, between two events. -/
structure ParseState where
  reader : ReaderState
  builder : Builder

/-- What a turn leads to. -/
inductive Turn where
  /-- The event was taken in. -/
  | goesOn (s : ParseState)
  /-- Parsing is over. -/
  | ends (outcome : Except (Fault × Nat) Document)

/-- The document that was built from a text of `size` bytes, if no element of it is left open. -/
def Builder.conclude (size : Nat) (b : Builder) : Except (Fault × Nat) Document :=
  match b.stack with
  | e :: _ => .error (.unclosedElement e.tag, size)
  | [] => .ok ⟨b.finished.reverse⟩

/-- An element that is left open is reported by the innermost of the open names. -/
private theorem Builder.conclude_eq_error_iff {size offset : Nat} {b : Builder} {f : Fault} :
    b.conclude size = .error (f, offset) ↔
      ∃ name, b.opened.head? = some name ∧ f = .unclosedElement name ∧ offset = size := by
  obtain ⟨stack, finished⟩ := b
  cases stack with
  | nil => simp [conclude, opened]
  | cons e outer => simp [conclude, opened, eq_comm]

namespace ParseState

/-- Nothing read and nothing built. -/
def start (x : String) : ParseState :=
  ⟨⟨[], 0, dropByteOrderMark x.toList⟩, .empty⟩

/-- One turn of parsing a text of `size` bytes. -/
def turn (size : Nat) (s : ParseState) : Turn :=
  match s.reader.next with
  | .event e behind =>
    match s.builder.handle e with
    | .ok b => .goesOn ⟨behind, b⟩
    | .error f => .ends (.error (f, s.reader.offset))
  | .fault f offset => .ends (.error (f, offset))
  | .atEnd => .ends (s.builder.conclude size)

/-- What comes of a source if all that is still to be read is read first and taken in then. -/
def outcome (size : Nat) (s : ParseState) : Except (Fault × Nat) Document :=
  match s.builder.handleAll s.reader.reading.events with
  | .error e => .error e
  | .ok b =>
    match s.reader.reading.ending with
    | .broken f offset => .error (f, offset)
    | .complete _ => b.conclude size

/-- A turn goes on if there is an event that can be taken in. -/
private theorem turn_eq_goesOn_iff {size : Nat} {s t : ParseState} :
    s.turn size = .goesOn t ↔
      ∃ e, s.reader.next = .event e t.reader ∧ s.builder.handle e = .ok t.builder := by
  constructor
  · intro h
    rw [turn] at h
    split at h
    · rename_i e behind hnext
      split at h
      · rename_i b hb
        cases h
        exact ⟨e, hnext, hb⟩
      · cases h
    · cases h
    · cases h
  · rintro ⟨e, hnext, hb⟩
    simp only [turn, hnext, hb]

/-- A turn ends parsing with an event that is faulty, with a construct that cannot be read, or at
    the end of the text. -/
private theorem turn_eq_ends {size : Nat} {s : ParseState} {o : Except (Fault × Nat) Document}
    (h : s.turn size = .ends o) :
    (∃ e behind f, s.reader.next = .event e behind ∧ s.builder.handle e = .error f ∧
        o = .error (f, s.reader.offset)) ∨
      (∃ f offset, s.reader.next = .fault f offset ∧ o = .error (f, offset)) ∨
        s.reader.next = .atEnd ∧ o = s.builder.conclude size := by
  rw [turn] at h
  split at h
  · rename_i e behind hnext
    split at h
    · cases h
    · rename_i f hf
      cases h
      exact .inl ⟨e, behind, f, hnext, hf, rfl⟩
  · rename_i f offset hnext
    cases h
    exact .inr (.inl ⟨f, offset, hnext, rfl⟩)
  · rename_i hnext
    cases h
    exact .inr (.inr ⟨hnext, rfl⟩)

/-- A turn does not change what comes of a source. -/
private theorem outcome_of_goesOn {size : Nat} {s t : ParseState} (h : s.turn size = .goesOn t) :
    s.outcome size = t.outcome size := by
  obtain ⟨e, hnext, hhandle⟩ := turn_eq_goesOn_iff.1 h
  -- the event is the first of the reading, and the builder takes it first
  rw [outcome, s.reader.reading_eq, hnext]
  dsimp only [Reading.cons]
  rw [Builder.handleAll, hhandle]
  rfl

/-- What comes of a source is what its last turn gives. -/
private theorem outcome_of_ends {size : Nat} {s : ParseState} {o : Except (Fault × Nat) Document}
    (h : s.turn size = .ends o) : s.outcome size = o := by
  rcases turn_eq_ends h with
    ⟨e, behind, f, hnext, hhandle, rfl⟩ | ⟨f, offset, hnext, rfl⟩ | ⟨hnext, rfl⟩
  · rw [outcome, s.reader.reading_eq, hnext]
    dsimp only [Reading.cons]
    rw [Builder.handleAll, hhandle]
  · rw [outcome, s.reader.reading_eq, hnext]
    rfl
  · rw [outcome, s.reader.reading_eq, hnext]
    rfl

/-- At the start, what comes of a source is the document that is built from all its events. -/
private theorem outcome_start (x : String) :
    (start x).outcome x.utf8ByteSize = Document.ofReading x.utf8ByteSize (ofText x) := by
  have hreading : (start x).reader.reading = ofText x := rfl
  have hbuilder : (start x).builder = .empty := rfl
  rw [outcome, hreading, hbuilder, Document.ofReading]
  cases Builder.empty.handleAll (ofText x).events with
  | error e => rfl
  | ok b =>
    obtain ⟨stack, finished⟩ := b
    cases (ofText x).ending <;> cases stack <;> rfl

/-! ## The states of a source -/

/-- The states in which a source is while it is parsed: at the start, and after every turn. -/
inductive Reachable (x : String) : ParseState → Prop where
  | start : Reachable x (start x)
  | step {s t : ParseState} (reached : Reachable x s) (goesOn : s.turn x.utf8ByteSize = .goesOn t) :
    Reachable x t

/-- After every turn, what comes of a source is that document. -/
private theorem Reachable.outcome_eq {x : String} {s : ParseState} (h : Reachable x s) :
    s.outcome x.utf8ByteSize = Document.ofReading x.utf8ByteSize (ofText x) := by
  induction h with
  | start => exact outcome_start x
  | step _ hturn ih => rw [← outcome_of_goesOn hturn, ih]

/-- Sooner or later a turn ends parsing, since every other one takes something off the text. -/
private theorem Reachable.exists_end {x : String} {s : ParseState} (h : Reachable x s) :
    ∃ t, Reachable x t ∧ ∃ o, t.turn x.utf8ByteSize = .ends o := by
  -- on how much of the text is left
  induction hlength : s.reader.rest.length using Nat.strong_induction_on generalizing s with
  | _ n ih =>
    cases hturn : s.turn x.utf8ByteSize with
    | ends o => exact ⟨s, h, o, hturn⟩
    | goesOn t =>
      obtain ⟨e, hnext, -⟩ := turn_eq_goesOn_iff.1 hturn
      have hless := (ReaderState.behind_of_next hnext).2
      exact ih _ (hlength ▸ hless) (h.step hturn) rfl

/-- Parsing a source gives what the last of its turns gives. -/
theorem ofReading_eq_iff {x : String} {o : Except (Fault × Nat) Document} :
    Document.ofReading x.utf8ByteSize (ofText x) = o ↔
      ∃ s, Reachable x s ∧ s.turn x.utf8ByteSize = .ends o := by
  constructor
  · -- the last turn gives what came of the source all along
    rintro rfl
    obtain ⟨s, hs, o, hend⟩ := (Reachable.start (x := x)).exists_end
    exact ⟨s, hs, by rw [hend, ← hs.outcome_eq, outcome_of_ends hend]⟩
  · rintro ⟨s, hs, hend⟩
    rw [← hs.outcome_eq, outcome_of_ends hend]

/-! ## Open names -/

/-- Whether the names that the reader holds open are those of the open elements, one by one. -/
def Agrees (s : ParseState) : Prop :=
  s.builder.opened = s.reader.opened

/-- What the reader finds can be delivered to the document, too: a closing tag has the name of the
    innermost open element. -/
theorem Agrees.isDelivered {s : ParseState} (h : s.Agrees) {e : Event} {behind : ReaderState}
    (hnext : s.reader.next = .event e behind) : e.IsDelivered s.builder.opened := by
  rw [show s.builder.opened = s.reader.opened from h]
  exact ReaderState.isDelivered_of_next hnext

/-- Both records are moved by the same event, and in the same way. -/
private theorem Agrees.of_goesOn {size : Nat} {s t : ParseState} (h : s.Agrees)
    (hturn : s.turn size = .goesOn t) : t.Agrees := by
  obtain ⟨e, hnext, hhandle⟩ := turn_eq_goesOn_iff.1 hturn
  calc t.builder.opened
      = e.openedAfter s.builder.opened := (Builder.handle_eq_ok (h.isDelivered hnext) hhandle).2
    _ = e.openedAfter s.reader.opened := by rw [h]
    _ = t.reader.opened := (ReaderState.behind_of_next hnext).1.symm

/-- After every turn the same names are open for the reader and in the document. -/
theorem Reachable.agrees {x : String} {s : ParseState} (h : Reachable x s) : s.Agrees := by
  induction h with
  | start => rfl
  | step _ hturn ih => exact ih.of_goesOn hturn

/-- A closing tag closes the innermost open element, and that is the one with its name. -/
theorem Agrees.closes {s : ParseState} (h : s.Agrees) {name : String} {behind : ReaderState}
    (hnext : s.reader.next = .event (.close name) behind) (size : Nat) :
    ∃ e outer, s.builder.stack = e :: outer ∧ e.tag = name ∧
      s.turn size = .goesOn ⟨behind, { s.builder with stack := outer }.attach
        (.element name e.attrs e.children.reverse)⟩ := by
  -- the reader delivers a closing tag only for its innermost name, and the document has the same
  have hinner : s.builder.opened.head? = some name := (h.isDelivered hnext).1
  obtain ⟨reader, stack, finished⟩ := s
  cases stack with
  | nil => cases hinner
  | cons e outer =>
    obtain rfl : e.tag = name := Option.some.inj hinner
    exact ⟨e, outer, rfl, rfl, turn_eq_goesOn_iff.2 ⟨_, hnext, rfl⟩⟩

/-- A source is refused for an event, for a construct that cannot be read, or at its end for the
    innermost name that the reader still holds open. -/
private theorem Reachable.fault_of_ends {x : String} {s : ParseState} {f : Fault} {offset : Nat}
    (h : Reachable x s) (hend : s.turn x.utf8ByteSize = .ends (.error (f, offset))) :
    (f.IsOfReading ∨ ∃ v, f.IsOfEvent v) ∨
      s.reader.rest = [] ∧ ∃ name, s.reader.opened.head? = some name ∧
        f = .unclosedElement name := by
  have hagrees : s.builder.opened = s.reader.opened := h.agrees
  rcases turn_eq_ends hend with
    ⟨e, behind, f', hnext, hhandle, ho⟩ | ⟨f', offset', hnext, ho⟩ | ⟨hnext, ho⟩
  · -- the document has what a closing tag closes, so it is the event itself that is faulty
    cases ho
    have hdelivered := h.agrees.isDelivered hnext
    exact .inl (.inr ⟨e.view, (Builder.handle_eq_error hdelivered hhandle).2⟩)
  · cases ho
    have hreading := s.reader.reading_eq
    rw [hnext] at hreading
    exact .inl (.inl (isOfReading_of_ending (congrArg Reading.ending hreading)))
  · obtain ⟨name, hopen, rfl, -⟩ := Builder.conclude_eq_error_iff.1 ho.symm
    exact .inr ⟨ReaderState.next_eq_atEnd_iff.1 hnext, name, hagrees ▸ hopen, rfl⟩

/-- At the end of the text a source is refused for the innermost name that is open. -/
private theorem Reachable.ends_of_open {x name : String} {s : ParseState} (h : Reachable x s)
    (hrest : s.reader.rest = []) (hopen : s.reader.opened.head? = some name) :
    s.turn x.utf8ByteSize = .ends (.error (.unclosedElement name, x.utf8ByteSize)) := by
  have hagrees : s.builder.opened = s.reader.opened := h.agrees
  -- the builder has the same name on top of its stack
  have hconclude : s.builder.conclude x.utf8ByteSize =
      .error (.unclosedElement name, x.utf8ByteSize) :=
    Builder.conclude_eq_error_iff.2 ⟨name, hagrees ▸ hopen, rfl, rfl⟩
  rw [ParseState.turn, ReaderState.next_eq_atEnd_iff.2 hrest, ← hconclude]

end ParseState

/-! ## Wordings -/

/-- The wording for an element that is left open has a front of its own. -/
private theorem Fault.front_unclosedElement (name : String) :
    (Fault.unclosedElement name).front = ['u', 'n'] := by
  have hfront : ("unclosed element <").toList.take 2 = ['u', 'n'] := rfl
  exact take_two_append (take_two_append hfront _) _

/-- What is wrong with an event or a construct is not worded like what is wrong with elements that
    are open, or are not. -/
private theorem Fault.front_of_isOfReading_or_isOfEvent {f : Fault}
    (h : f.IsOfReading ∨ ∃ v, f.IsOfEvent v) : f.front ≠ ['c', 'l'] ∧ f.front ≠ ['u', 'n'] := by
  rcases h with (h | h) | ⟨v, ⟨g, rfl⟩ | ⟨g, rfl, -⟩⟩
  · rw [h]
    decide
  · rw [h]
    decide
  · rcases front_entity g with hg | hg | hg <;> rw [hg] <;> decide
  · rw [front_attribute]
    decide

/-- The wording for an element that is left open tells its name. -/
private theorem Fault.message_unclosedElement_inj {name name' : String}
    (h : (Fault.unclosedElement name).message = (Fault.unclosedElement name').message) :
    name = name' := by
  have happend : "unclosed element <" ++ name ++ ">" = "unclosed element <" ++ name' ++ ">" := h
  exact (String.append_right_inj _).1 ((String.append_left_inj _).1 happend)

open ParseState

/-- A source that is refused is refused by the last of its turns. -/
private theorem exists_end_of_parse_eq_error {x : String} {e : SourceError}
    (h : Document.parse x = .error e) :
    ∃ s f offset, Reachable x s ∧ s.turn x.utf8ByteSize = .ends (.error (f, offset)) ∧
      e = .atOffset f x offset := by
  obtain ⟨f, hread, rfl⟩ := parse_eq_error h
  obtain ⟨s, hs, hend⟩ := ofReading_eq_iff.1 hread
  exact ⟨s, f, _, hs, hend, rfl⟩

/-- While a source is parsed, the elements that are open in the document are, after every turn,
    those whose names the reader holds open, from the innermost to the outermost. So a closing tag
    always closes the element with its own name, and no source is refused for a closing tag that has
    none to close. A source is refused for an element that is left open exactly if the reader comes
    to the end of the text with names open, and for the innermost of them. -/
theorem open_names_of_parse (x : String) :
    (∀ s, Reachable x s → s.builder.opened = s.reader.opened) ∧
      (∀ s name behind, Reachable x s → s.reader.next = .event (.close name) behind →
        ∃ e outer, s.builder.stack = e :: outer ∧ e.tag = name ∧
          s.turn x.utf8ByteSize = .goesOn ⟨behind, { s.builder with stack := outer }.attach
            (.element name e.attrs e.children.reverse)⟩) ∧
      (∀ e, Document.parse x = .error e → e.wording ≠ "closing tag without an open element") ∧
      ∀ name, (∃ e, Document.parse x = .error e ∧
          e.wording = "unclosed element <" ++ name ++ ">") ↔
        ∃ s, Reachable x s ∧ s.reader.rest = [] ∧ s.reader.opened.head? = some name := by
  refine ⟨fun s hs => hs.agrees, fun s name behind hs hnext => hs.agrees.closes hnext _, ?_, ?_⟩
  · intro e hparse hwording
    obtain ⟨s, f, offset, hs, hend, rfl⟩ := exists_end_of_parse_eq_error hparse
    -- the wordings of all faults that end parsing start differently
    have hfront : f.front = Fault.closeWithoutOpen.front :=
      congrArg (fun message => message.toList.take 2) hwording
    rcases hs.fault_of_ends hend with hf | ⟨-, name, -, rfl⟩
    · exact (Fault.front_of_isOfReading_or_isOfEvent hf).1 hfront
    · rw [Fault.front_unclosedElement] at hfront
      cases hfront
  · intro name
    constructor
    · intro h
      obtain ⟨e, hparse, hwording⟩ := h
      obtain ⟨s, f, offset, hs, hend, rfl⟩ := exists_end_of_parse_eq_error hparse
      have hmessage : f.message = (Fault.unclosedElement name).message := hwording
      rcases hs.fault_of_ends hend with hf | ⟨hrest, name', hopen, rfl⟩
      · have hfront := congrArg (fun message => message.toList.take 2) hmessage
        have hun := Fault.front_unclosedElement name
        exact absurd (hfront.trans hun) (Fault.front_of_isOfReading_or_isOfEvent hf).2
      · rw [← Fault.message_unclosedElement_inj hmessage]
        exact ⟨s, hs, hrest, hopen⟩
    · intro h
      obtain ⟨s, hs, hrest, hopen⟩ := h
      have hread := ofReading_eq_iff.2 ⟨s, hs, hs.ends_of_open hrest hopen⟩
      exact ⟨_, by rw [Document.parse, hread], rfl⟩

/-- A source with an element that is closed, behind a comment, and one that is left open. -/
def halfOpenSource : String :=
  "<svg><!-- c --><g></g ><u>"

/-- A closing tag finds the innermost open element, and the source is refused for the element that
    it leaves open. -/
theorem open_names_of_parse_halfOpenSource :
    (∃ s behind, Reachable halfOpenSource s ∧ s.reader.next = .event (.close "g") behind ∧
        s.builder.opened = ["g", "svg"] ∧ ∃ e outer, s.builder.stack = e :: outer ∧ e.tag = "g") ∧
      (∃ e, Document.parse halfOpenSource = .error e ∧ e.wording = "unclosed element <u>") ∧
      ∃ s, Reachable halfOpenSource s ∧ s.reader.rest = [] ∧ s.reader.opened.head? = some "u" := by
  -- the first three turns take in a start, a comment and another start
  let svg : OpenElement := ⟨"svg", .empty, []⟩
  let g : OpenElement := ⟨"g", .empty, []⟩
  let s₁ : ParseState := ⟨⟨["svg"], 5, ("<!-- c --><g></g ><u>").toList⟩, ⟨[svg], []⟩⟩
  let s₂ : ParseState := ⟨⟨["svg"], 15, ("<g></g ><u>").toList⟩, ⟨[svg], []⟩⟩
  let s₃ : ParseState := ⟨⟨["g", "svg"], 18, ("</g ><u>").toList⟩, ⟨[g, svg], []⟩⟩
  have hstart : ∀ (b : Builder) name, b.handle (.start ⟨name, []⟩) =
      .ok { b with stack := ⟨name, .empty, []⟩ :: b.stack } := by
    intro b name
    simp [Builder.handle, Tag.readAttributes, Tag.attributes, readAttributes, nextAttribute,
      AttributeList.nil, insertAttributes]
  have h₁ : (start halfOpenSource).turn halfOpenSource.utf8ByteSize = .goesOn s₁ :=
    turn_eq_goesOn_iff.2 ⟨.start ⟨"svg", []⟩, rfl, hstart _ _⟩
  have h₂ : s₁.turn halfOpenSource.utf8ByteSize = .goesOn s₂ :=
    turn_eq_goesOn_iff.2 ⟨.comment " c ", rfl, rfl⟩
  have h₃ : s₂.turn halfOpenSource.utf8ByteSize = .goesOn s₃ :=
    turn_eq_goesOn_iff.2 ⟨.start ⟨"g", []⟩, rfl, hstart _ _⟩
  have hreached : Reachable halfOpenSource s₃ := .step (.step (.step .start h₁) h₂) h₃
  have hnext : s₃.reader.next = .event (.close "g") ⟨["svg"], 23, ("<u>").toList⟩ := rfl
  have hparse : Document.parse halfOpenSource =
      .error (.parse (.unclosedElement "u") ⟨none, 1, 27⟩) :=
    error_of_error? (by decide +kernel)
  obtain ⟨hopened, hcloses, -, hends⟩ := open_names_of_parse halfOpenSource
  obtain ⟨e, outer, hstack, htag, -⟩ := hcloses s₃ "g" _ hreached hnext
  refine ⟨⟨s₃, _, hreached, hnext, hopened s₃ hreached, e, outer, hstack, htag⟩, ?_⟩
  have hrefused : ∃ e, Document.parse halfOpenSource = .error e ∧
      e.wording = "unclosed element <u>" := ⟨_, hparse, rfl⟩
  exact ⟨hrefused, (hends "u").1 hrefused⟩

end IconCompiler.Markup
