import IconCompiler.Style

/-!
# The markup tree

A document is a list of nodes; a node is a text or an element with attributes and children. The
order of attributes is part of the data, since output lists them in source order.
-/

namespace IconCompiler.Markup

/-- The value of an attribute. -/
inductive AttrValue where
  /-- A text, kept as it stands in the source. -/
  | text (s : String)
  /-- The declarations of a `style` attribute. -/
  | style (declarations : StyleMap)
  deriving DecidableEq, Inhabited

/-- Attribute names with their values, in source order. -/
abbrev Attributes := OrderedMap String AttrValue

/-- A node of the markup tree. -/
inductive Node where
  /-- A text, kept as it stands in the source. -/
  | text (s : String)
  /-- An element with its tag name, attributes and children. -/
  | element (tag : String) (attrs : Attributes) (children : List Node)

namespace Node

instance : Inhabited Node := ⟨.text ""⟩

mutual

/-- Whether two nodes are equal. -/
def decEq : (a b : Node) → Decidable (a = b)
  | .text s, .text t =>
    if h : s = t then isTrue (h ▸ rfl) else isFalse fun e => h (by injection e)
  | .text _, .element _ _ _ => isFalse nofun
  | .element _ _ _, .text _ => isFalse nofun
  | .element t as cs, .element t' as' cs' =>
    if h : t = t' ∧ as = as' then
      match decEqList cs cs' with
      | isTrue hc => isTrue (by rw [h.1, h.2, hc])
      | isFalse hc => isFalse fun e => hc (by injection e)
    else isFalse fun e => h (by injection e with h₁ h₂; exact ⟨h₁, h₂⟩)

/-- Whether two lists of nodes are equal. -/
def decEqList : (as bs : List Node) → Decidable (as = bs)
  | [], [] => isTrue rfl
  | [], _ :: _ => isFalse nofun
  | _ :: _, [] => isFalse nofun
  | a :: as, b :: bs =>
    match decEq a b with
    | isFalse h => isFalse fun e => h (by injection e)
    | isTrue h =>
      match decEqList as bs with
      | isTrue h' => isTrue (by rw [h, h'])
      | isFalse h' => isFalse fun e => h' (by injection e)

end

instance : DecidableEq Node := decEq

/-- The text under an attribute name, if the node is an element and the value is a text. -/
def attr? : Node → String → Option String
  | .text _, _ => none
  | .element _ attrs _, name =>
    match attrs.get? name with
    | some (.text s) => some s
    | _ => none

end Node

/-- A parsed source: its top-level nodes. -/
structure Document where
  nodes : List Node
  deriving DecidableEq, Inhabited

/-- The nodes that a component is made from. A leading `svg` element gives way to its children,
    because the component brings an outer `svg` of its own. -/
def Document.content (doc : Document) : List Node :=
  match doc.nodes with
  | .element "svg" _ children :: _ => children
  | nodes => nodes

end IconCompiler.Markup
