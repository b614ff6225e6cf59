import IconCompiler.Markup.Entity
import IconCompiler.Markup.Node
import IconCompiler.Markup.Reading

/-!
# Documents from events

`Document.parse` builds the markup tree of a source. Elements, texts and CDATA sections become
nodes; comments, instructions and document types do not, nor does white space outside all elements.
-/

namespace IconCompiler.Markup

/-- The value of an attribute: the declarations of a `style`, with entities decoded, or the text as
    it stands in the source. -/
def Attribute.toValue (a : Attribute) : Except Fault AttrValue :=
  if a.key = "style" then
    match decodeEntities a.value with
    | .ok s => .ok (.style (Style.read s))
    | .error f => .error (.entity f)
  else .ok (.text a.value)

/-- Inserts attributes one after another, up to the first value that is faulty. -/
def insertAttributes (attrs : Attributes) : List Attribute → Except Fault Attributes
  | [] => .ok attrs
  | a :: rest =>
    match a.toValue with
    | .ok v => insertAttributes (attrs.insert a.key v) rest
    | .error f => .error f

/-- The attributes of a tag. -/
def Tag.readAttributes (tag : Tag) : Except Fault Attributes :=
  let l := tag.attributes
  match insertAttributes .empty l.items, l.fault with
  -- a value before the faulty attribute is looked at first
  | .error f, _ => .error f
  | .ok _, some f => .error (.attribute f)
  | .ok attrs, none => .ok attrs

/-- An element whose closing tag was not met yet. -/
structure OpenElement where
  tag : String
  attrs : Attributes
  /-- The children met so far, the last one first. -/
  children : List Node

/-- A document under construction. -/
structure Builder where
  /-- The open elements, the innermost first. -/
  stack : List OpenElement
  /-- The finished top-level nodes, the last one first. -/
  finished : List Node

namespace Builder

/-- Nothing built and nothing open. -/
def empty : Builder :=
  ⟨[], []⟩

/-- Adds a node to the innermost open element, or at the top level. -/
def attach (b : Builder) (n : Node) : Builder :=
  match b.stack with
  | [] => { b with finished := n :: b.finished }
  | e :: rest => { b with stack := { e with children := n :: e.children } :: rest }

/-- The builder after an event. -/
def handle (b : Builder) : Event → Except Fault Builder
  | .start tag =>
    match tag.readAttributes with
    | .ok attrs => .ok { b with stack := ⟨tag.name, attrs, []⟩ :: b.stack }
    | .error f => .error f
  | .empty tag =>
    match tag.readAttributes with
    | .ok attrs => .ok (b.attach (.element tag.name attrs []))
    | .error f => .error f
  | .close _ =>
    match b.stack with
    | [] => .error .closeWithoutOpen
    | e :: rest =>
      .ok ({ b with stack := rest }.attach (.element e.tag e.attrs e.children.reverse))
  | .text s =>
    -- white space between top-level elements is no content
    if b.stack.isEmpty && Text.isBlank s.toList then .ok b else .ok (b.attach (.text s))
  | .cdata s => .ok (b.attach (.text s))
  | .comment _ | .instruction _ | .doctype _ => .ok b

/-- The builder after a list of events, or the first fault and its offset. -/
def handleAll (b : Builder) : List Located → Except (Fault × Nat) Builder
  | [] => .ok b
  | l :: rest =>
    match b.handle l.event with
    | .ok b' => handleAll b' rest
    | .error f => .error (f, l.offset)

end Builder

/-- The document of a reading whose text has `size` bytes, or the first fault and its offset. An
    element that is left open is a fault at the end of the text. -/
def Document.ofReading (size : Nat) (r : Reading) : Except (Fault × Nat) Document :=
  match Builder.empty.handleAll r.events with
  | .error e => .error e
  | .ok b =>
    match r.ending, b.stack with
    -- elements that are left open count only if the reading came to the end
    | .broken f offset, _ => .error (f, offset)
    | .complete _, e :: _ => .error (.unclosedElement e.tag, size)
    | .complete _, [] => .ok ⟨b.finished.reverse⟩

/-- The document of a source. -/
def Document.parse (text : String) : Except SourceError Document :=
  match Document.ofReading text.utf8ByteSize (Reading.ofText text) with
  | .ok doc => .ok doc
  | .error (f, offset) => .error (.atOffset f text offset)

end IconCompiler.Markup
