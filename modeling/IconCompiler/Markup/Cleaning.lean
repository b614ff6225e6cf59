import IconCompiler.Markup.Reading
import IconCompiler.Text.WhiteSpace

/-!
# Cleaning a source

`clean` takes out of a source what a component does not need: comments, instructions, document
types, metadata, what vector editors add for themselves, name space declarations, and white space
between elements. It works on events: `keep` chooses the pieces that stay, `renderPieces` writes
them, and an element without content is written as an empty one.
-/

namespace IconCompiler.Markup

/-- Elements that are dropped with their content. -/
def droppedElements : List String :=
  ["metadata", "title", "desc"]

/-- The name space marks that vector editors write. -/
def editorMarks : List String :=
  ["sodipodi:", "inkscape:", "sketch:", "serif:"]

/-- Whether a name starts with the mark of an editor. -/
def hasEditorMark (name : String) : Bool :=
  editorMarks.any fun mark => mark.toList.isPrefixOf name.toList

/-- Whether an element is dropped with its content. -/
def isDroppedElement (name : String) : Bool :=
  droppedElements.contains name || hasEditorMark name

/-- Whether an attribute is dropped: a name space declaration, or one that an editor wrote for
    itself. -/
def isDroppedAttribute (name : String) : Bool :=
  name = "xmlns" || "xmlns:".toList.isPrefixOf name.toList || hasEditorMark name

/-- The attributes of a tag that stay, or the fault among all of them. -/
def Tag.keptAttributes (tag : Tag) : Except Fault (List Attribute) :=
  let l := tag.attributes
  match l.fault with
  | some f => .error (.attribute f)
  | none => .ok (l.items.filter fun a => !isDroppedAttribute a.key)

/-- A piece of a cleaned source. -/
inductive Piece where
  /-- The start of an element. -/
  | opening (name : String) (attrs : List Attribute)
  /-- An element without content. -/
  | empty (name : String) (attrs : List Attribute)
  /-- The end of an element. -/
  | closing (name : String)
  | text (s : String)
  | cdata (s : String)
  deriving Repr, DecidableEq

/-- Where the cleaning of a source stands. -/
structure Depths where
  /-- How many elements are open inside a dropped one, itself included. -/
  dropped : Nat
  /-- How many elements are open inside a kept `text` element, itself included. White space there is
      content. -/
  text : Nat
  deriving Repr, DecidableEq

namespace Depths

/-- Outside everything. -/
def zero : Depths :=
  ⟨0, 0⟩

/-- The depths after an event. -/
def after (d : Depths) : Event → Depths
  | .start tag =>
    -- inside a dropped element every element is dropped, whatever its name
    if d.dropped > 0 || isDroppedElement tag.name then { d with dropped := d.dropped + 1 }
    else if d.text > 0 || tag.name = "text" then { d with text := d.text + 1 }
    else d
  | .close _ =>
    if d.dropped > 0 then { d with dropped := d.dropped - 1 } else { d with text := d.text - 1 }
  | _ => d

end Depths

/-- The piece that stays of an event, if any. -/
def keep (d : Depths) : Event → Except Fault (Option Piece)
  | .start tag =>
    if d.dropped > 0 || isDroppedElement tag.name then .ok none
    else tag.keptAttributes.map fun attrs => some (.opening tag.name attrs)
  | .empty tag =>
    if d.dropped > 0 || isDroppedElement tag.name then .ok none
    else tag.keptAttributes.map fun attrs => some (.empty tag.name attrs)
  | .close name => .ok (if d.dropped > 0 then none else some (.closing name))
  | .text s =>
    .ok (if d.dropped = 0 && (d.text > 0 || !Text.isBlank s.toList) then some (.text s) else none)
  | .cdata s => .ok (if d.dropped = 0 then some (.cdata s) else none)
  | .comment _ | .instruction _ | .doctype _ => .ok none

/-- The pieces that stay of a list of events, or the first fault and its offset. -/
def keepAll (d : Depths) : List Located → Except (Fault × Nat) (List Piece)
  | [] => .ok []
  | l :: rest =>
    match keep d l.event with
    | .error f => .error (f, l.offset)
    | .ok piece? => (keepAll (d.after l.event) rest).map (piece?.toList ++ ·)

/-- The quote that an attribute value is written in: the double one unless it occurs inside. -/
def quoteFor (value : String) : Char :=
  if value.toList.contains '"' then '\'' else '"'

/-- An attribute as it is written, after a space. -/
def renderAttribute (a : Attribute) : List Char :=
  ' ' :: a.key.toList ++ ['=', quoteFor a.value] ++ a.value.toList ++ [quoteFor a.value]

/-- The front of a tag as it is written, up to where it is closed. -/
def renderTagFront (name : String) (attrs : List Attribute) : List Char :=
  '<' :: name.toList ++ attrs.flatMap renderAttribute

/-- Pieces as they are written. An element that is closed right after it was opened is written as an
    empty one. -/
def renderPieces : List Piece → List Char
  | [] => []
  | .opening name attrs :: .closing _ :: rest =>
    renderTagFront name attrs ++ ['/', '>'] ++ renderPieces rest
  | .opening name attrs :: rest => renderTagFront name attrs ++ ['>'] ++ renderPieces rest
  | .empty name attrs :: rest => renderTagFront name attrs ++ ['/', '>'] ++ renderPieces rest
  | .closing name :: rest => ['<', '/'] ++ name.toList ++ ['>'] ++ renderPieces rest
  | .text s :: rest => s.toList ++ renderPieces rest
  | .cdata s :: rest =>
    "<![CDATA[".toList ++ s.toList ++ "]]>".toList ++ renderPieces rest

/-- The pieces that stay of a reading, or its first fault and the offset of that. -/
def Reading.kept (r : Reading) : Except (Fault × Nat) (List Piece) :=
  match keepAll .zero r.events with
  | .error e => .error e
  | .ok pieces =>
    match r.ending with
    -- what ended the reading comes after all faults of attributes
    | .broken f offset => .error (f, offset)
    | .complete _ => .ok pieces

/-- A source without what a component does not need. -/
def clean (text : String) : Except SourceError String :=
  match (Reading.ofText text).kept with
  | .ok pieces => .ok (String.ofList (renderPieces pieces))
  | .error (f, offset) => .error (.atOffset f text offset)

end IconCompiler.Markup
