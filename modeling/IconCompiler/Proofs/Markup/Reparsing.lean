import IconCompiler.Proofs.Markup.PrintableTrees

/-!
# Parsing what was parsed

The document of a source is written and parsed again. Texts are written as they stand, so what
comes back has neighbouring texts merged. It is the same document otherwise, exactly if all its
tokens are legible and no text at the front is taken for a byte order mark. The reader accepts more
than that: a value between single quotes may hold double quotes, and is then written between them.

## Key results

- `mergeTokens_nodesTokens_append`: merging texts in a tree is merging them in its tokens
- `writableTokens_of_delivers`: the tokens of a reading without styles are writable
- `parse_renderNodes_parse`: a document is parsed again as it is exactly if its tokens are legible
-/

namespace IconCompiler.Markup

open EventView

/-! ## Merging texts -/

/-- A node in front of nodes; a text is merged with the text that they start with. -/
def consNode : Node → List Node → List Node
  | .text s, .text t :: ns => .text (s ++ t) :: ns
  | n, ns => n :: ns

mutual

/-- A node with neighbouring texts inside it merged. -/
def Node.mergeTexts : Node → Node
  | .text s => .text s
  | .element tag attrs children => .element tag attrs (mergeNodes children)

/-- Nodes with neighbouring texts merged, at every depth. -/
def mergeNodes : List Node → List Node
  | [] => []
  | n :: ns => consNode n.mergeTexts (mergeNodes ns)

end

/-- A document with neighbouring texts merged. -/
def Document.mergeTexts (doc : Document) : Document :=
  ⟨mergeNodes doc.nodes⟩

/-- A token in front of tokens; a text is merged with the text that they start with. -/
def consToken : Token → List Token → List Token
  | .text s, .text t :: ts => .text (s ++ t) :: ts
  | t, ts => t :: ts

/-- Tokens with neighbouring texts merged. -/
def mergeTokens : List Token → List Token
  | [] => []
  | t :: ts => consToken t (mergeTokens ts)

/-- In front of the end of nodes nothing is merged. -/
private theorem consToken_of_endsNodes (t : Token) {ts : List Token} (h : EndsNodes ts) :
    consToken t ts = t :: ts := by
  unfold consToken
  split
  · rename_i s u us
    obtain ⟨tag, htag⟩ := h (.text u) rfl
    cases htag
  · rfl

/-- Merging texts leaves the end of nodes as it is. -/
private theorem endsNodes_mergeTokens {ts : List Token} (h : EndsNodes ts) :
    EndsNodes (mergeTokens ts) := by
  cases ts with
  | nil => exact h
  | cons t ts =>
    obtain ⟨tag, rfl⟩ := h t rfl
    simp [EndsNodes, mergeTokens, consToken]

/-- Behind the last node no text goes on. -/
private theorem nodesTokens_consNode_text (s : String) (ns : List Node) {us : List Token}
    (h : EndsNodes us) :
    nodesTokens (consNode (.text s) ns) ++ us = consToken (.text s) (nodesTokens ns ++ us) := by
  cases ns with
  | nil => simp [consNode, nodesTokens, Node.tokens, consToken_of_endsNodes _ h]
  | cons n ns =>
    -- only a text is merged with the one in front
    cases n with
    | text t => simp [consNode, nodesTokens, Node.tokens, consToken]
    | element tag attrs children => simp [consNode, nodesTokens, Node.tokens, consToken]

/-- Merging texts in nodes is merging them in their tokens. -/
theorem mergeTokens_nodesTokens_append (ns : List Node) {us : List Token} (h : EndsNodes us) :
    mergeTokens (nodesTokens ns ++ us) = nodesTokens (mergeNodes ns) ++ mergeTokens us := by
  -- `us` is what follows the nodes; behind the children of an element it starts with the element's
  -- end, so that no text of theirs is merged with one outside
  match ns with
  | [] => simp [nodesTokens, mergeNodes]
  | .text s :: ns =>
    have ih := mergeTokens_nodesTokens_append ns h
    have htokens : nodesTokens (.text s :: ns) ++ us = .text s :: (nodesTokens ns ++ us) := rfl
    rw [htokens, mergeTokens, ih, mergeNodes, Node.mergeTexts,
      nodesTokens_consNode_text s _ (endsNodes_mergeTokens h)]
  | .element tag attrs children :: ns =>
    have ih := mergeTokens_nodesTokens_append ns h
    have hstop : EndsNodes (.stop tag :: (nodesTokens ns ++ us)) := by simp [EndsNodes]
    have hchildren := mergeTokens_nodesTokens_append children hstop
    have htokens : nodesTokens (.element tag attrs children :: ns) ++ us =
        .start tag attrs.entries ::
          (nodesTokens children ++ .stop tag :: (nodesTokens ns ++ us)) := by
      simp [nodesTokens, Node.tokens]
    rw [htokens, mergeTokens, hchildren, mergeTokens, ih]
    simp [consToken, mergeNodes, Node.mergeTexts, consNode, nodesTokens, Node.tokens]

/-- The tokens of a merged document are the merged tokens. -/
private theorem Document.tokens_mergeTexts (doc : Document) :
    doc.mergeTexts.tokens = mergeTokens doc.tokens := by
  have hnil : EndsNodes [] := by simp [EndsNodes]
  have h := mergeTokens_nodesTokens_append doc.nodes hnil
  simpa [Document.tokens, Document.mergeTexts, mergeTokens] using h.symm

/-! ## Merged tokens -/

/-- Merged texts are written as they were written one behind the other. -/
private theorem renderTokens_mergeTokens (ts : List Token) :
    renderTokens (mergeTokens ts) = renderTokens ts := by
  -- two texts that are merged are written as they were
  have hcons : ∀ t ts, renderTokens (consToken t ts) = t.renderChars ++ renderTokens ts := by
    intro t ts
    unfold consToken
    split <;> simp [renderTokens_cons, Token.renderChars]
  induction ts with
  | nil => rfl
  | cons t ts ih => rw [mergeTokens, hcons, ih, renderTokens_cons]

/-- A token that is merged with the text behind it leaves texts apart. -/
private theorem apartTexts_consToken (t : Token) {ts : List Token} (h : ApartTexts ts) :
    ApartTexts (consToken t ts) := by
  unfold consToken
  split
  -- the merged text stands where the second one stood
  · obtain ⟨hnext, happ⟩ := List.isChain_cons.1 h
    exact happ.cons fun u hu _ => hnext u hu rfl
  · rename_i hne
    refine h.cons ?_
    intro u hu ht
    -- if nothing was merged, one of the two is no text
    cases t with
    | start | stop => cases ht
    | text s =>
      cases u with
      | start | stop => rfl
      | text r =>
        obtain ⟨us, rfl⟩ := List.head?_eq_some_iff.1 hu
        exact absurd rfl (hne s r us rfl)

/-- Merged texts are apart. -/
private theorem apartTexts_mergeTokens (ts : List Token) : ApartTexts (mergeTokens ts) := by
  induction ts with
  | nil => exact .nil
  | cons t ts ih => exact apartTexts_consToken t ih

/-- Two texts without angle brackets are one without them. -/
private theorem writableTokens_consToken {opened : List String} {t : Token} {ts : List Token}
    (ht : t.IsWritable opened) (hts : WritableTokens (t.openedAfter opened) ts) :
    WritableTokens opened (consToken t ts) := by
  unfold consToken
  split
  · rename_i s r us
    have hs : '<' ∉ s.toList := ht
    have hr : '<' ∉ r.toList := hts.1
    have hlt : '<' ∉ (s ++ r).toList := by simp [hs, hr]
    exact ⟨hlt, hts.2⟩
  · exact ⟨ht, hts⟩

/-- Merged tokens are writable if they were. -/
private theorem writableTokens_mergeTokens {opened : List String} {ts : List Token}
    (h : WritableTokens opened ts) : WritableTokens opened (mergeTokens ts) := by
  induction ts generalizing opened with
  | nil => exact h
  | cons t ts ih => exact writableTokens_consToken h.1 (ih h.2)

/-! ## The tokens of a reading -/

/-- Whether no attribute of an event is a style. -/
def EventView.HasNoStyle : EventView → Prop
  | .start _ attrs | .empty _ attrs => ∀ a ∈ attrs.items, a.key ≠ "style"
  | _ => True

/-- The entries of a tag without styles are those of its attributes as they stand. -/
theorem Tag.exists_plainEntries {tag : Tag} {es : List (String × AttrValue)}
    (h : tag.attributes.entries? = some es) (hstyle : ∀ a ∈ tag.attributes.items, a.key ≠ "style") :
    ∃ items, ArePlain items ∧ es = plainEntries items := by
  refine ⟨tag.attributes.items, ⟨tag.areWritable_attributes, hstyle⟩, ?_⟩
  -- faulty attributes have no entries
  have hfault : tag.attributes.fault = none := by
    by_contra hne
    simp [AttributeList.entries?, hne] at h
  -- without a style, the entries are the attributes as they stand
  have hplain : tag.attributes.entries? = some (plainEntries tag.attributes.items) :=
    (entries?_eq_plainEntries hstyle).2 (by rw [← hfault])
  exact Option.some.inj (h.symm.trans hplain)

/-- The names of open elements can be names of tags. -/
private theorem isTagName_openedAfter {opened : List String} {e : Event} (he : e.IsDelivered opened)
    (hopened : ∀ n ∈ opened, IsTagName n) : ∀ n ∈ e.openedAfter opened, IsTagName n := by
  cases e with
  -- the only new name is that of the tag
  | start tag => exact List.forall_mem_cons.2 ⟨he, hopened⟩
  | close name => exact fun n hn => hopened n (List.mem_of_mem_tail hn)
  | empty | text | cdata | comment | instruction | doctype => exact hopened

/-- The tokens of one event that is delivered are writable in front of others. -/
private theorem writableTokens_of_isDelivered {opened : List String} {e : Event}
    (he : e.IsDelivered opened) (hopened : ∀ n ∈ opened, IsTagName n)
    (hstyle : e.view.HasNoStyle) {us ts : List Token}
    (hus : tokensFrom? opened.length [e.view] = some us)
    (hlt : ∀ s, .text s ∈ us → '<' ∉ s.toList) (hts : WritableTokens (e.openedAfter opened) ts) :
    WritableTokens opened (us ++ ts) := by
  rw [tokensFrom?_singleton] at hus
  cases e with
  | start tag =>
    obtain ⟨es, hes, rfl⟩ := Option.map_eq_some_iff.1 hus
    exact ⟨⟨he, Tag.exists_plainEntries hes hstyle⟩, hts⟩
  | empty tag =>
    obtain ⟨es, hes, rfl⟩ := Option.map_eq_some_iff.1 hus
    exact ⟨⟨he, Tag.exists_plainEntries hes hstyle⟩, ⟨he, rfl⟩, hts⟩
  | close name =>
    obtain rfl := Option.some.inj hus
    -- the element that ends is the innermost open one
    exact ⟨⟨hopened name (List.mem_of_mem_head? he.1), he.1⟩, hts⟩
  | text s =>
    simp only [Event.view, isAside, Bool.false_or] at hus
    split at hus
    · -- a blank text outside all elements stands for nothing
      obtain rfl := Option.some.inj hus
      exact hts
    · obtain rfl := Option.some.inj hus
      exact ⟨hlt s List.mem_cons_self, hts⟩
  | cdata s =>
    obtain rfl := Option.some.inj hus
    exact ⟨hlt s List.mem_cons_self, hts⟩
  | comment | instruction | doctype =>
    obtain rfl := Option.some.inj hus
    exact hts

/-- The tokens of a reading that closes all its elements are writable, unless there are styles, or
    texts with angle brackets. -/
theorem writableTokens_of_delivers {opened : List String} {ls : List Located}
    (hls : Delivers opened ls) (hend : openedAfterAll opened ls = [])
    (hopened : ∀ n ∈ opened, IsTagName n) (hstyle : ∀ l ∈ ls, l.event.view.HasNoStyle)
    {ts : List Token} (hts : tokensFrom? opened.length (ls.map fun l => l.event.view) = some ts)
    (hlt : ∀ s, .text s ∈ ts → '<' ∉ s.toList) : WritableTokens opened ts := by
  -- over the events, for all open names that can be names of tags
  induction ls generalizing opened ts with
  | nil =>
    obtain rfl := Option.some.inj hts
    exact hend
  | cons l ls ih =>
    rw [List.map_cons, tokensFrom?_cons, ← Builder.length_openedAfter,
      Option.bind_eq_some_iff] at hts
    obtain ⟨us, hus, hrest⟩ := hts
    obtain ⟨vs, hvs, rfl⟩ := Option.map_eq_some_iff.1 hrest
    rw [List.forall_mem_cons] at hstyle
    have htail := ih hls.2 hend (isTagName_openedAfter hls.1 hopened) hstyle.2 hvs
      fun s hs => hlt s (List.mem_append_right _ hs)
    exact writableTokens_of_isDelivered hls.1 hopened hstyle.1 hus
      (fun s hs => hlt s (List.mem_append_left _ hs)) htail

/-! ## Parsing a document again -/

/-- A document that was parsed from a source without styles, and has no angle bracket in a text, is
    written so that parsing gives it again with neighbouring texts merged, exactly if all its
    tokens are legible then and no byte order mark stands in front. -/
theorem parse_renderNodes_parse {x : String} {doc : Document} (hdoc : Document.parse x = .ok doc)
    (hstyle : ∀ v ∈ (Reading.ofText x).views, v.HasNoStyle)
    (hlt : ∀ s, .text s ∈ doc.tokens → '<' ∉ s.toList) :
    Document.parse (renderNodes doc.nodes) = .ok doc.mergeTexts ↔
      LegibleTokens [] doc.mergeTexts.tokens ∧
        (renderNodesChars doc.nodes).head? ≠ some '\uFEFF' := by
  obtain ⟨hending, hsource⟩ := parse_eq_ok_iff.1 hdoc
  have hviews : ∀ l ∈ (Reading.ofText x).events, l.event.view.HasNoStyle := by
    intro l hl
    exact hstyle _ (List.mem_map_of_mem hl)
  have hparsed : WritableTokens [] doc.tokens :=
    writableTokens_of_delivers (delivers_run [] 0 _) (ending_run hending).symm (by simp) hviews
      hsource hlt
  -- what is written for the nodes is what is written for the merged tokens, which are writable and
  -- stand apart
  have hw : WritableTokens [] doc.mergeTexts.tokens := by
    rw [doc.tokens_mergeTexts]
    exact writableTokens_mergeTokens hparsed
  have hapart : ApartTexts doc.mergeTexts.tokens := by
    rw [doc.tokens_mergeTexts]
    exact apartTexts_mergeTokens _
  have hwritten : renderNodesChars doc.nodes = renderTokens doc.mergeTexts.tokens := by
    rw [renderNodesChars_eq, doc.tokens_mergeTexts, renderTokens_mergeTokens]
    rfl
  rw [parse_eq_ok_iff_readTokens?, renderNodes, String.toList_ofList]
  by_cases hmark : (renderNodesChars doc.nodes).head? = some '\uFEFF'
  · -- the mark in front is lost
    obtain ⟨cs, hcs⟩ := List.head?_eq_some_iff.1 hmark
    have hdrop : Reading.dropByteOrderMark (renderNodesChars doc.nodes) = cs := by
      rw [hcs, Reading.dropByteOrderMark, if_pos rfl]
    have hlost := readTokens?_tail_ne hw hapart (by decide) (hwritten.symm.trans hcs)
    rw [hdrop]
    simp [hlost, hmark]
  · rw [Reading.dropByteOrderMark_eq_self hmark, hwritten, readTokens?_renderTokens hw hapart]
    rw [hwritten] at hmark
    simp [hmark]

/-- A source with both kinds of quotes around values, brackets in a value, texts that a comment and
    a section part, and an empty element. -/
def quotedSource : String :=
  "<?xml?>\n<svg a='1' b=\">\">x<!-- c --> y<![CDATA[&]]><g/></svg>"

/-- The texts around the comment and the section are written and read as one, and a bracket in a
    value stays in the value. -/
theorem parse_renderNodes_parse_quotedSource :
    ∃ doc, Document.parse quotedSource = .ok doc ∧
      renderNodes doc.nodes = "<svg a=\"1\" b=\">\">x y&<g></g></svg>" ∧
      Document.parse (renderNodes doc.nodes) = .ok doc.mergeTexts := by
  let doc : Document := ⟨[.element "svg" ⟨[("a", .text "1"), ("b", .text ">")], by decide⟩
    [.text "x", .text " y", .text "&", .element "g" .empty []]]⟩
  have hdoc : Document.parse quotedSource = .ok doc := ok_of_toOption (by decide +kernel)
  have hviews : (Reading.ofText quotedSource).views =
      [.instruction "xml", .text "\n", .start "svg" ⟨[⟨"a", "1"⟩, ⟨"b", ">"⟩], none⟩, .text "x",
        .comment " c ", .text " y", .cdata "&", .empty "g" .nil, .close "svg"] := by
    decide +kernel
  have hstyle : ∀ v ∈ (Reading.ofText quotedSource).views, v.HasNoStyle := by
    rw [hviews]
    simp [EventView.HasNoStyle, AttributeList.nil]
  have htokens : doc.tokens = [.start "svg" [("a", .text "1"), ("b", .text ">")], .text "x",
      .text " y", .text "&", .start "g" [], .stop "g", .stop "svg"] := rfl
  have hmerged : doc.mergeTexts.tokens = [.start "svg" [("a", .text "1"), ("b", .text ">")],
      .text "x y&", .start "g" [], .stop "g", .stop "svg"] := by
    decide +kernel
  have hlegible : LegibleTokens [] doc.mergeTexts.tokens := by
    rw [hmerged]
    have hsvg : isClosed none (startText "svg" [("a", .text "1"), ("b", .text ">")]) = true := by
      decide
    have hnames : isClosed none (startText "g" []) = true ∧ isClosed none ['g'] = true ∧
        isClosed none ['s', 'v', 'g'] = true := by
      decide
    simp [LegibleTokens, Token.IsLegible, Token.openedAfter, hsvg, hnames]
  have hlt : ∀ s, .text s ∈ doc.tokens → '<' ∉ s.toList := by
    rw [htokens]
    simp
  have hwritten : renderNodes doc.nodes = "<svg a=\"1\" b=\">\">x y&<g></g></svg>" := by
    decide +kernel
  exact ⟨doc, hdoc, hwritten, (parse_renderNodes_parse hdoc hstyle hlt).2 ⟨hlegible, by decide⟩⟩

/-- A value between single quotes with a double quote in it: what is written for its document is
    no document. -/
theorem not_parse_renderNodes_of_single_quotes :
    ∃ doc, Document.parse "<a b='\"'/>" = .ok doc ∧
      (∀ v ∈ (Reading.ofText "<a b='\"'/>").views, v.HasNoStyle) ∧
      renderNodes doc.nodes = "<a b=\"\"\"></a>" ∧
      ∀ doc', Document.parse (renderNodes doc.nodes) ≠ .ok doc' := by
  let doc : Document := ⟨[.element "a" ⟨[("b", .text "\"")], by decide⟩ []]⟩
  have hdoc : Document.parse "<a b='\"'/>" = .ok doc := ok_of_toOption (by decide +kernel)
  have hviews : (Reading.ofText "<a b='\"'/>").views = [.empty "a" ⟨[⟨"b", "\""⟩], none⟩] := by
    decide +kernel
  have hwritten : renderNodes doc.nodes = "<a b=\"\"\"></a>" := by decide +kernel
  have hfails : (Document.parse "<a b=\"\"\"></a>").toOption = none := by decide +kernel
  refine ⟨doc, hdoc, ?_, hwritten, ?_⟩
  · rw [hviews]
    simp [EventView.HasNoStyle]
  · intro doc' h
    rw [hwritten] at h
    simp [h, Except.toOption] at hfails

end IconCompiler.Markup
