import IconCompiler.Markup.Node
import IconCompiler.Markup.PropName

/-!
# Markup trees as component fragments

`Node.withPropNames` gives every attribute the name of its property; `render` writes a list of
nodes. Every element gets a closing tag, texts and attribute values are written as they are, and a
style is written as an object.

Nodes are written in front of what follows them, so that no text is copied once for every element
around it; `renderChars_element` and `renderNodesChars_cons` say what stands where.
-/

namespace IconCompiler.Markup

/-- The attributes of an element under their property names. Where two names fall together, the
    first position and the last value stand. -/
def Attributes.withPropNames (attrs : Attributes) : Attributes :=
  OrderedMap.ofList (attrs.entries.map fun e => (propName e.1, e.2))

mutual

/-- A node with the attributes of all its elements under their property names. -/
def Node.withPropNames : Node → Node
  | .text s => .text s
  | .element tag attrs children =>
    .element tag (Attributes.withPropNames attrs) (nodesWithPropNames children)

/-- Nodes with the attributes of all their elements under their property names. -/
def nodesWithPropNames : List Node → List Node
  | [] => []
  | n :: ns => n.withPropNames :: nodesWithPropNames ns

end

/-- An attribute value as it is written after the attribute's name. -/
def AttrValue.renderChars : AttrValue → List Char
  | .text s => ['=', '"'] ++ s.toList ++ ['"']
  | .style declarations =>
    ['=', '{', '{', ' '] ++ Style.renderChars declarations ++ [' ', '}', '}']

/-- Attributes as they are written in an opening tag, each after a space. -/
def Attributes.renderChars (attrs : Attributes) : List Char :=
  attrs.entries.flatMap fun e => ' ' :: e.1.toList ++ e.2.renderChars

mutual

/-- Writes a node in front of a text. -/
def Node.renderOnto : Node → List Char → List Char
  | .text s, rest => s.toList ++ rest
  | .element tag attrs children, rest =>
    '<' :: tag.toList ++ Attributes.renderChars attrs ++
      '>' :: renderNodesOnto children ('<' :: '/' :: tag.toList ++ '>' :: rest)

/-- Writes a list of nodes in front of a text. -/
def renderNodesOnto : List Node → List Char → List Char
  | [], rest => rest
  | n :: ns, rest => n.renderOnto (renderNodesOnto ns rest)

end

/-- The characters that a node is written with. -/
def Node.renderChars (n : Node) : List Char :=
  n.renderOnto []

/-- The characters that a list of nodes is written with. -/
def renderNodesChars (ns : List Node) : List Char :=
  renderNodesOnto ns []

mutual

/-- What stands behind a node does not change how the node is written. -/
private theorem Node.renderOnto_append (n : Node) (a b : List Char) :
    n.renderOnto (a ++ b) = n.renderOnto a ++ b := by
  cases n with
  | text s => simp [Node.renderOnto]
  | element tag attrs children =>
    have h := renderNodesOnto_append children ('<' :: '/' :: tag.toList ++ '>' :: a) b
    simp only [List.cons_append, List.append_assoc] at h
    simp [Node.renderOnto, h]

/-- What stands behind a list of nodes does not change how they are written. -/
private theorem renderNodesOnto_append (ns : List Node) (a b : List Char) :
    renderNodesOnto ns (a ++ b) = renderNodesOnto ns a ++ b := by
  cases ns with
  | nil => rfl
  | cons n ns =>
    rw [renderNodesOnto, renderNodesOnto_append ns a b, Node.renderOnto_append n, ← renderNodesOnto]

end

private theorem Node.renderOnto_eq (n : Node) (rest : List Char) :
    n.renderOnto rest = n.renderChars ++ rest :=
  n.renderOnto_append [] rest

private theorem renderNodesOnto_eq (ns : List Node) (rest : List Char) :
    renderNodesOnto ns rest = renderNodesChars ns ++ rest :=
  renderNodesOnto_append ns [] rest

/-- A text is written as it is. -/
theorem Node.renderChars_text (s : String) : (Node.text s).renderChars = s.toList := by
  simp [Node.renderChars, Node.renderOnto]

/-- An element is written as a start tag, its children and an end tag, whether it has children or
    not. -/
theorem Node.renderChars_element (tag : String) (attrs : Attributes) (children : List Node) :
    (Node.element tag attrs children).renderChars =
      '<' :: tag.toList ++ Attributes.renderChars attrs ++ ['>'] ++ renderNodesChars children ++
        ['<', '/'] ++ tag.toList ++ ['>'] := by
  simp [Node.renderChars, Node.renderOnto, renderNodesOnto_eq]

theorem renderNodesChars_nil : renderNodesChars [] = [] :=
  rfl

theorem renderNodesChars_cons (n : Node) (ns : List Node) :
    renderNodesChars (n :: ns) = n.renderChars ++ renderNodesChars ns :=
  n.renderOnto_eq _

/-- A node as it is written. -/
def Node.render (n : Node) : String :=
  String.ofList n.renderChars

/-- A list of nodes as it is written, in order. -/
def renderNodes (ns : List Node) : String :=
  String.ofList (renderNodesChars ns)

end IconCompiler.Markup
