import IconCompiler.Markup.Jsx
import IconCompiler.Proofs.Markup.Token
import IconCompiler.Proofs.OrderedMap
import Mathlib.Data.List.Nodup

/-!
# Trees under property names

Giving a tree its property names leaves everything else as it was: the texts, the tags, and the
order of the children at every depth. Of attributes whose names fall together, one is left.

## Key results

- `Attributes.areRenamed_withPropNames`: what becomes of the attributes of one element
- `Node.corresponds_withPropNames`: what becomes of a tree
- `nodesTokens_withPropNames`: what becomes of its tokens
-/

namespace IconCompiler.Markup

/-- Whether attributes are what others become under property names. -/
structure Attributes.AreRenamed (attrs renamed : Attributes) : Prop where
  /-- The names are the distinct property names, in the order of their first appearance. -/
  keys_eq : renamed.keys = (attrs.keys.map propName).eraseDups
  /-- The value under a name is that of the last attribute with the property name. -/
  get?_eq (name : String) :
    renamed.get? name =
      (attrs.entries.reverse.find? fun e => propName e.1 = name).map Prod.snd
  /-- Where no two names fall together, the values are as they were. -/
  values_eq (h : ∀ k ∈ attrs.keys, ∀ k' ∈ attrs.keys, propName k = propName k' → k = k') :
    renamed.entries.map Prod.snd = attrs.entries.map Prod.snd

/-- What becomes of the attributes of one element. -/
theorem Attributes.areRenamed_withPropNames (attrs : Attributes) :
    attrs.AreRenamed (Attributes.withPropNames attrs) := by
  have hkeys : (attrs.entries.map fun e => (propName e.1, e.2)).map Prod.fst =
      attrs.keys.map propName := by
    rw [OrderedMap.keys, List.map_map, List.map_map]
    rfl
  refine ⟨?keys, fun name => ?value, fun h => ?values⟩
  case keys => rw [Attributes.withPropNames, OrderedMap.keys_ofList, hkeys]
  -- the last of the attributes that are given a name wins
  case value =>
    rw [Attributes.withPropNames, OrderedMap.get?_ofList, ← List.map_reverse, List.find?_map,
      Option.map_map]
    rfl
  case values =>
    -- without a clash no attribute takes the place of another
    have hnodup : (attrs.keys.map propName).Nodup := attrs.nodup_keys.map_on h
    rw [Attributes.withPropNames, OrderedMap.entries_ofList (hkeys ▸ hnodup), List.map_map]
    rfl

/-- Whether two trees have the same texts and tags in the same places, and attributes that are
    related at every element. -/
inductive Node.Corresponds (R : Attributes → Attributes → Prop) : Node → Node → Prop
  | text (s : String) : Corresponds R (.text s) (.text s)
  | element (tag : String) {attrs attrs' : Attributes} {children children' : List Node}
      (hattrs : R attrs attrs') (hchildren : List.Forall₂ (Corresponds R) children children') :
      Corresponds R (.element tag attrs children) (.element tag attrs' children')

mutual

/-- What holds of the attributes of one element under property names holds at every depth. -/
theorem Node.corresponds_of_attributes {R : Attributes → Attributes → Prop}
    (h : ∀ attrs : Attributes, R attrs (Attributes.withPropNames attrs)) (n : Node) :
    n.Corresponds R n.withPropNames := by
  cases n with
  | text s => exact .text s
  | element tag attrs children =>
    exact .element tag (h attrs) (nodesCorrespond_of_attributes h children)

/-- What holds of the attributes of one element holds in every one of some nodes. -/
theorem nodesCorrespond_of_attributes {R : Attributes → Attributes → Prop}
    (h : ∀ attrs : Attributes, R attrs (Attributes.withPropNames attrs)) (ns : List Node) :
    List.Forall₂ (Node.Corresponds R) ns (nodesWithPropNames ns) := by
  cases ns with
  | nil => exact .nil
  | cons n ns =>
    exact .cons (n.corresponds_of_attributes h) (nodesCorrespond_of_attributes h ns)

end

/-- A tree under property names has the shape that it had, and the attributes of every element
    renamed. -/
theorem Node.corresponds_withPropNames (n : Node) :
    n.Corresponds Attributes.AreRenamed n.withPropNames :=
  n.corresponds_of_attributes Attributes.areRenamed_withPropNames

/-! ## Tokens under property names -/

/-- What becomes of the attributes of a tag under their property names. -/
def propEntries (attrs : List (String × AttrValue)) : List (String × AttrValue) :=
  (OrderedMap.ofList (attrs.map fun e => (propName e.1, e.2))).entries

/-- A token with the attributes under their property names. -/
def Token.withPropNames : Token → Token
  | .start tag attrs => .start tag (propEntries attrs)
  | t => t

mutual

/-- The tokens of a node under property names are its tokens under property names. -/
theorem Node.tokens_withPropNames (n : Node) :
    n.withPropNames.tokens = n.tokens.map Token.withPropNames := by
  cases n with
  | text s => rfl
  | element tag attrs children =>
    simp only [Node.withPropNames, Node.tokens, List.map_cons, List.map_append,
      nodesTokens_withPropNames children]
    rfl

/-- The tokens of nodes under property names are their tokens under property names. -/
theorem nodesTokens_withPropNames (ns : List Node) :
    nodesTokens (nodesWithPropNames ns) = (nodesTokens ns).map Token.withPropNames := by
  cases ns with
  | nil => rfl
  | cons n ns =>
    rw [nodesWithPropNames, nodesTokens, nodesTokens, List.map_append, Node.tokens_withPropNames n,
      nodesTokens_withPropNames ns]

end

/-- A property has the value of the last attribute that is given its name. -/
theorem mem_propEntries_iff {attrs : List (String × AttrValue)} {p : String × AttrValue} :
    p ∈ propEntries attrs ↔
      ∃ e, (attrs.reverse.find? fun e => propName e.1 = p.1) = some e ∧ e.2 = p.2 := by
  rw [propEntries, OrderedMap.mem_entries_iff, OrderedMap.get?_ofList, ← List.map_reverse,
    List.find?_map, Option.map_map, Option.map_eq_some_iff]
  rfl

/-- Every property is one of the attributes under its property name. -/
theorem exists_of_mem_propEntries {attrs : List (String × AttrValue)} {p : String × AttrValue}
    (h : p ∈ propEntries attrs) : ∃ e ∈ attrs, (propName e.1, e.2) = p :=
  List.mem_map.1 (OrderedMap.mem_of_mem_entries_ofList h)

end IconCompiler.Markup
