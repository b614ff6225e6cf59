import IconCompiler.Markup.Cleaning

/-!
# Events as a reader sees them, and the policy of cleaning

A view of an event shows the attributes of a tag and not the spaces between them. The policy of
cleaning is given on views, one step after another: asides, dropped elements, dropped attributes
and blank texts are taken out, neighbouring texts are joined, and an element that ends right after
its start becomes an empty one. `clean` does all of it in one pass over the events; nothing here
refers to that.
-/

namespace IconCompiler.Markup

/-- An event as a reader sees it. -/
inductive EventView where
  | start (name : String) (attrs : AttributeList)
  | empty (name : String) (attrs : AttributeList)
  | close (name : String)
  | text (s : String)
  | cdata (s : String)
  | comment (s : String)
  | instruction (s : String)
  | doctype (s : String)
  deriving Repr, DecidableEq

/-- What a reader sees of an event. -/
def Event.view : Event → EventView
  | .start tag => .start tag.name tag.attributes
  | .empty tag => .empty tag.name tag.attributes
  | .close name => .close name
  | .text s => .text s
  | .cdata s => .cdata s
  | .comment s => .comment s
  | .instruction s => .instruction s
  | .doctype s => .doctype s

/-- What a reader sees of a source. -/
def Reading.views (r : Reading) : List EventView :=
  r.events.map fun l => l.event.view

namespace EventView

/-! ## The steps of the policy -/

/-- Whether an event is neither markup of an element nor a text. -/
def isAside : EventView → Bool
  | .comment _ | .instruction _ | .doctype _ => true
  | _ => false

/-- The events after the end of an open element inside which `inner` elements are open. An element
    that is never closed goes on to the end. -/
def afterElement : (inner : Nat) → List EventView → List EventView
  | _, [] => []
  | inner, .start _ _ :: vs => afterElement (inner + 1) vs
  | 0, .close _ :: vs => vs
  | inner + 1, .close _ :: vs => afterElement inner vs
  | inner, _ :: vs => afterElement inner vs

private theorem afterElement_length (inner : Nat) (vs : List EventView) :
    (afterElement inner vs).length ≤ vs.length := by
  fun_induction afterElement inner vs <;> simp only [List.length_cons, List.length_nil] <;> omega

/-- The events outside dropped elements. -/
def withoutElements : List EventView → List EventView
  | [] => []
  | .start name attrs :: vs =>
    if isDroppedElement name then
      have := afterElement_length 0 vs
      withoutElements (afterElement 0 vs)
    else .start name attrs :: withoutElements vs
  | .empty name attrs :: vs =>
    if isDroppedElement name then withoutElements vs else .empty name attrs :: withoutElements vs
  | v :: vs => v :: withoutElements vs
termination_by vs => vs.length
decreasing_by all_goals simp only [List.length_cons]; omega

/-- Attributes without the dropped ones. -/
def withoutDropped (l : AttributeList) : AttributeList :=
  { l with items := l.items.filter fun a => !isDroppedAttribute a.key }

/-- An event without the dropped attributes of its tag. -/
def withoutAttributes : EventView → EventView
  | .start name attrs => .start name (withoutDropped attrs)
  | .empty name attrs => .empty name (withoutDropped attrs)
  | v => v

/-- The events without the blank texts outside `text` elements; `opened` holds the open names. -/
def withoutBlanks : (opened : List String) → List EventView → List EventView
  | _, [] => []
  | opened, .start name attrs :: vs => .start name attrs :: withoutBlanks (name :: opened) vs
  | opened, .close name :: vs => .close name :: withoutBlanks opened.tail vs
  | opened, .text s :: vs =>
    if Text.isBlank s.toList && !opened.contains "text" then withoutBlanks opened vs
    else .text s :: withoutBlanks opened vs
  | opened, v :: vs => v :: withoutBlanks opened vs

/-- A text in front of events, joined with the text that they start with. -/
def consText (s : String) : List EventView → List EventView
  | .text t :: vs => .text (s ++ t) :: vs
  | vs => .text s :: vs

/-- A text in front of anything else than a text stays on its own. -/
theorem consText_of_ne (s : String) {vs : List EventView}
    (h : ∀ t vs', vs ≠ .text t :: vs') : consText s vs = .text s :: vs := by
  unfold consText
  split
  · rename_i t vs'
    exact absurd rfl (h t vs')
  · rfl

/-- The events with neighbouring texts joined. -/
def joinTexts : List EventView → List EventView
  | [] => []
  | .text s :: vs => consText s (joinTexts vs)
  | v :: vs => v :: joinTexts vs

/-- The events with an empty element for every element that ends right after its start. -/
def joinEmpty : List EventView → List EventView
  | .start name attrs :: .close _ :: vs => .empty name attrs :: joinEmpty vs
  | v :: vs => v :: joinEmpty vs
  | [] => []

/-- The events that the policy keeps. -/
def policy (vs : List EventView) : List EventView :=
  let outside := withoutElements (vs.filter fun v => !v.isAside)
  joinEmpty (joinTexts (withoutBlanks [] (outside.map withoutAttributes)))

end EventView

/-- The events that cleaning has to keep of a source. -/
def keptEvents (source : String) : List EventView :=
  EventView.policy (Reading.ofText source).views

end IconCompiler.Markup
