import IconCompiler.Markup.Document
import IconCompiler.Proofs.Markup.EventView

/-!
# Documents as tokens

A document read from left to right is a list of tokens: the start and the end of every element, and
the texts between them. `Document.tokens` gives the tokens of a tree, `sourceTokens?` those that the
events of a source stand for. Nothing here refers to how a tree is built from events.

## Key results

- `nodesTokens_inj`: the tokens of nodes determine the nodes
- `tokensFrom?_cons`: the tokens of events are those of the first event and of the others
-/

namespace IconCompiler.Markup

/-- A piece of a document, from left to right. -/
inductive Token where
  /-- The start of an element with its attributes. -/
  | start (tag : String) (attrs : List (String × AttrValue))
  /-- The end of an element. -/
  | stop (tag : String)
  | text (s : String)
  deriving DecidableEq

/-! ## The tokens of a tree -/

mutual

/-- A node from left to right: an element is its start, its children and its end. -/
def Node.tokens : Node → List Token
  | .text s => [.text s]
  | .element tag attrs children => .start tag attrs.entries :: (nodesTokens children ++ [.stop tag])

/-- Nodes from left to right. -/
def nodesTokens : List Node → List Token
  | [] => []
  | n :: ns => n.tokens ++ nodesTokens ns

end

/-- A document from left to right. -/
def Document.tokens (doc : Document) : List Token :=
  nodesTokens doc.nodes

theorem nodesTokens_append (ns ms : List Node) :
    nodesTokens (ns ++ ms) = nodesTokens ns ++ nodesTokens ms := by
  induction ns with
  | nil => rfl
  | cons n ns ih => simp [nodesTokens, ih]

/-- Whether tokens go on behind the last child of an element, or behind the last node. -/
def EndsNodes (ts : List Token) : Prop :=
  ∀ t ∈ ts.head?, ∃ tag, t = .stop tag

/-- A node does not start with the end of an element. -/
private theorem Node.not_endsNodes_tokens_append (n : Node) (ts : List Token) :
    ¬EndsNodes (n.tokens ++ ts) := by
  intro h
  -- a node starts with a text or with a start tag
  cases n with
  | text s =>
    obtain ⟨tag, htag⟩ := h (.text s) rfl
    cases htag
  | element tag attrs children =>
    obtain ⟨tag', htag⟩ := h (.start tag attrs.entries) rfl
    cases htag

mutual

/-- Where a node ends can be told from its tokens. -/
theorem Node.tokens_append_inj (n m : Node) {us vs : List Token}
    (h : n.tokens ++ us = m.tokens ++ vs) : n = m ∧ us = vs := by
  cases n with
  | text s =>
    cases m with
    | text t =>
      simp only [Node.tokens, List.cons_append, List.nil_append, List.cons.injEq,
        Token.text.injEq] at h
      exact ⟨by rw [h.1], h.2⟩
    | element tag attrs children => simp [Node.tokens] at h
  | element tag attrs children =>
    cases m with
    | text t => simp [Node.tokens] at h
    | element tag' attrs' children' =>
      simp only [Node.tokens, List.cons_append, List.append_assoc, List.nil_append,
        List.cons.injEq, Token.start.injEq] at h
      obtain ⟨⟨htag, hentries⟩, hrest⟩ := h
      -- behind the children stands the end of the element on both sides
      have hchildren := nodesTokens_append_inj children children'
        (by simp [EndsNodes]) (by simp [EndsNodes]) hrest
      have hattrs : attrs = attrs' := by
        cases attrs
        cases attrs'
        cases hentries
        rfl
      refine ⟨by rw [htag, hattrs, hchildren.1], ?_⟩
      exact (List.cons.inj hchildren.2).2

/-- Where nodes end can be told from their tokens, if what follows ends the nodes. -/
theorem nodesTokens_append_inj (ns ms : List Node) {us vs : List Token} (hus : EndsNodes us)
    (hvs : EndsNodes vs) (h : nodesTokens ns ++ us = nodesTokens ms ++ vs) : ns = ms ∧ us = vs := by
  cases ns with
  | nil =>
    cases ms with
    | nil => exact ⟨rfl, h⟩
    | cons m ms =>
      -- a node would start where the nodes of the other side have ended
      simp only [nodesTokens, List.nil_append, List.append_assoc] at h
      exact absurd (h ▸ hus) (m.not_endsNodes_tokens_append _)
  | cons n ns =>
    cases ms with
    | nil =>
      simp only [nodesTokens, List.nil_append, List.append_assoc] at h
      exact absurd (h ▸ hvs) (n.not_endsNodes_tokens_append _)
    | cons m ms =>
      simp only [nodesTokens, List.append_assoc] at h
      obtain ⟨hn, hrest⟩ := Node.tokens_append_inj n m h
      obtain ⟨hns, hus'⟩ := nodesTokens_append_inj ns ms hus hvs hrest
      exact ⟨by rw [hn, hns], hus'⟩

end

/-- The tokens of nodes determine the nodes. -/
theorem nodesTokens_inj {ns ms : List Node} (h : nodesTokens ns = nodesTokens ms) : ns = ms := by
  have hnil : EndsNodes [] := by simp [EndsNodes]
  exact (nodesTokens_append_inj ns ms hnil hnil (by rw [h])).1

/-! ## The tokens of events -/

/-- The entry that an attribute stands for: its key with the text as it stands, or `style` with the
    declarations in the decoded text, if it can be decoded. -/
def Attribute.entry? (a : Attribute) : Option (String × AttrValue) :=
  if a.key = "style" then
    (decodeEntities a.value).toOption.map fun s => ("style", .style (Style.read s))
  else some (a.key, .text a.value)

/-- The entries that attributes stand for, one for each and in their order, if none is faulty. -/
def AttributeList.entries? (l : AttributeList) : Option (List (String × AttrValue)) :=
  if l.fault = none then l.items.mapM Attribute.entry? else none

/-- An entry of attributes is one that an attribute among them stands for. -/
theorem AttributeList.exists_of_mem_entries? {l : AttributeList} {es : List (String × AttrValue)}
    {e : String × AttrValue} (h : l.entries? = some es) (he : e ∈ es) :
    ∃ a ∈ l.items, a.entry? = some e := by
  -- the entries come one from each attribute, so the induction is on the attributes
  have hitems : ∀ (items : List Attribute) es, items.mapM Attribute.entry? = some es → e ∈ es →
      ∃ a ∈ items, a.entry? = some e := by
    intro items
    induction items with
    | nil =>
      intro es hes he
      cases hes
      cases he
    | cons a items ih =>
      intro es hes he
      rw [List.mapM_cons] at hes
      cases ha : a.entry? with
      | none => simp [ha] at hes
      | some e' =>
        cases hrest : items.mapM Attribute.entry? with
        | none => simp [ha, hrest] at hes
        | some es' =>
          simp only [ha, hrest, Option.pure_def, Option.bind_eq_bind, Option.bind_some,
            Option.some.injEq] at hes
          rw [← hes] at he
          rcases List.mem_cons.1 he with rfl | he
          · exact ⟨a, List.mem_cons_self, ha⟩
          · obtain ⟨b, hb, hbe⟩ := ih es' hrest he
            exact ⟨b, List.mem_cons_of_mem _ hb, hbe⟩
  rw [AttributeList.entries?] at h
  split at h
  · exact hitems l.items es h he
  · cases h

namespace EventView

/-- The tokens that an event stands for. -/
def tokens? : EventView → Option (List Token)
  | .start tag attrs => attrs.entries?.map fun es => [.start tag es]
  | .empty tag attrs => attrs.entries?.map fun es => [.start tag es, .stop tag]
  | .close tag => some [.stop tag]
  | .text s | .cdata s => some [.text s]
  | .comment _ | .instruction _ | .doctype _ => some []

/-- A start among the tokens of an event is that of a tag with the attributes. -/
theorem exists_of_start_mem_tokens? {v : EventView} {us : List Token} {tag : String}
    {attrs : List (String × AttrValue)} (h : v.tokens? = some us) (ht : .start tag attrs ∈ us) :
    ∃ l : AttributeList, (v = .start tag l ∨ v = .empty tag l) ∧ l.entries? = some attrs := by
  -- only tags stand for a start
  cases v with
  | start tag' l =>
    obtain ⟨es, hes, rfl⟩ := Option.map_eq_some_iff.1 h
    simp only [List.mem_singleton, Token.start.injEq] at ht
    obtain ⟨rfl, rfl⟩ := ht
    exact ⟨l, .inl rfl, hes⟩
  | empty tag' l =>
    obtain ⟨es, hes, rfl⟩ := Option.map_eq_some_iff.1 h
    simp only [List.mem_cons, Token.start.injEq, reduceCtorEq, List.not_mem_nil, or_false] at ht
    obtain ⟨rfl, rfl⟩ := ht
    exact ⟨l, .inr rfl, hes⟩
  | close | text | cdata | comment | instruction | doctype =>
    cases h
    simp at ht

/-- How many elements are open after an event. -/
def depthAfter (depth : Nat) : EventView → Nat
  | .start _ _ => depth + 1
  | .close _ => depth - 1
  | _ => depth

/-- Whether an event is a blank text outside all elements, of which `depth` are open. -/
def isOuterBlank (depth : Nat) : EventView → Bool
  | .text s => depth = 0 && Text.isBlank s.toList
  | _ => false

/-- The events without the blank texts outside all elements, of which `depth` are open at the
    first. -/
def withoutOuterBlanks : (depth : Nat) → List EventView → List EventView
  | _, [] => []
  | depth, v :: vs =>
    if v.isOuterBlank depth then withoutOuterBlanks depth vs
    else v :: withoutOuterBlanks (v.depthAfter depth) vs

end EventView

open EventView

/-- The tokens that events stand for while `depth` elements are open: asides and blank texts outside
    all elements stand for nothing. -/
def tokensFrom? (depth : Nat) (vs : List EventView) : Option (List Token) :=
  ((withoutOuterBlanks depth (vs.filter fun v => !v.isAside)).mapM EventView.tokens?).map
    List.flatten

/-- The tokens that the events of a source stand for. -/
def sourceTokens? (source : String) : Option (List Token) :=
  tokensFrom? 0 (Reading.ofText source).views

theorem tokensFrom?_nil (depth : Nat) : tokensFrom? depth [] = some [] :=
  rfl

/-- One event stands for its tokens, unless it is left out. -/
theorem tokensFrom?_singleton (depth : Nat) (v : EventView) :
    tokensFrom? depth [v] = if v.isAside || v.isOuterBlank depth then some [] else v.tokens? := by
  by_cases haside : v.isAside = true
  · simp [tokensFrom?, haside, withoutOuterBlanks]
  · by_cases hblank : v.isOuterBlank depth = true
    · simp [tokensFrom?, haside, hblank, withoutOuterBlanks]
    · simp only [tokensFrom?, haside, hblank, withoutOuterBlanks, List.filter_cons_of_pos,
        Bool.not_false, List.filter_nil, List.mapM_cons, List.mapM_nil, Bool.false_eq_true,
        Bool.or_self, if_false]
      cases v.tokens? <;> simp

/-- An event that is neither an aside nor a blank text outside all elements stands for its
    tokens. -/
theorem tokensFrom?_of_kept {depth : Nat} {v : EventView} (haside : v.isAside = false)
    (hblank : v.isOuterBlank depth = false) : tokensFrom? depth [v] = v.tokens? := by
  rw [tokensFrom?_singleton, haside, hblank]
  rfl

/-- The tokens of events are those of the first event and of the others. -/
theorem tokensFrom?_cons (depth : Nat) (v : EventView) (vs : List EventView) :
    tokensFrom? depth (v :: vs) = (tokensFrom? depth [v]).bind fun ts =>
      (tokensFrom? (v.depthAfter depth) vs).map (ts ++ ·) := by
  by_cases haside : v.isAside = true
  · -- an aside opens and closes nothing
    have hdepth : v.depthAfter depth = depth := by
      cases v with
      | comment | instruction | doctype => rfl
      | start | empty | close | text | cdata => cases haside
    simp [tokensFrom?, haside, hdepth, withoutOuterBlanks, Function.comp_def]
  · by_cases hblank : v.isOuterBlank depth = true
    · -- a blank text opens and closes nothing
      have hdepth : v.depthAfter depth = depth := by
        cases v with
        | text s => rfl
        | start | empty | close | cdata | comment | instruction | doctype => cases hblank
      simp [tokensFrom?, haside, hblank, hdepth, withoutOuterBlanks, Function.comp_def]
    · simp only [tokensFrom?, haside, hblank, withoutOuterBlanks, List.filter_cons_of_pos,
        Bool.not_false, List.filter_nil, List.mapM_cons, List.mapM_nil, Bool.false_eq_true,
        if_false]
      cases v.tokens? with
      | none => rfl
      | some ts =>
        cases (withoutOuterBlanks (v.depthAfter depth) (vs.filter fun v => !v.isAside)).mapM
            EventView.tokens? <;> simp

/-- A token of events is one that an event among them stands for. -/
theorem exists_of_mem_tokensFrom? {depth : Nat} {vs : List EventView} {ts : List Token} {t : Token}
    (h : tokensFrom? depth vs = some ts) (ht : t ∈ ts) :
    ∃ v ∈ vs, ∃ us, v.tokens? = some us ∧ t ∈ us := by
  -- over the events, with the depth at each of them
  induction vs generalizing depth ts with
  | nil =>
    cases h
    cases ht
  | cons v vs ih =>
    rw [tokensFrom?_cons, Option.bind_eq_some_iff] at h
    obtain ⟨us, hv, hrest⟩ := h
    obtain ⟨us', hvs, rfl⟩ := Option.map_eq_some_iff.1 hrest
    rcases List.mem_append.1 ht with ht | ht
    · rw [tokensFrom?_singleton] at hv
      split at hv
      · cases hv
        cases ht
      · exact ⟨v, List.mem_cons_self, us, hv, ht⟩
    · obtain ⟨v', hv', hmem⟩ := ih hvs ht
      exact ⟨v', List.mem_cons_of_mem _ hv', hmem⟩

/-- The content of a document is part of it. -/
theorem Document.mem_tokens_of_mem_content {doc : Document} {t : Token}
    (h : t ∈ nodesTokens doc.content) : t ∈ doc.tokens := by
  rw [Document.content] at h
  split at h
  · -- the content of a root element stands between its tags
    rename_i attrs children rest hnodes
    rw [Document.tokens, hnodes, nodesTokens, Node.tokens]
    simp [h]
  · exact h

end IconCompiler.Markup
