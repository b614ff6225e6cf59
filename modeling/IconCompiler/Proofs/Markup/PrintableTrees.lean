import IconCompiler.Proofs.Markup.TokenReading

/-!
# Trees that are read back

A tree whose names are plain, whose values are texts without double quotes and whose texts are
apart from each other is written so that parsing gives the tree again. The tokens of such a tree
are writable, apart and legible, whatever of this kind follows them; that is carried from the
children of an element to the element.

## Key results

- `readsBack_nodesTokens`: the tokens of printable nodes are read back
- `parse_renderNodes`: parsing undoes writing on printable trees, so that these are written apart
-/

namespace IconCompiler.Markup

/-! ## Printable trees -/

/-- The characters that have a meaning of their own in a tag. -/
def tagMarks : List Char :=
  ['"', '\'', '<', '>', '/', '=', '!', '?']

/-- Whether a character is neither a space nor a mark of a tag. -/
def isNameChar (c : Char) : Bool :=
  !isMarkupSpace c && !tagMarks.contains c

/-- Whether a name is plain: it is not empty, and has no space in it and no mark of a tag. -/
structure IsPlainName (name : String) : Prop where
  ne_empty : name ≠ ""
  chars : ∀ c ∈ name.toList, isNameChar c = true

instance (name : String) : Decidable (IsPlainName name) :=
  decidable_of_iff (name ≠ "" ∧ name.toList.all isNameChar = true)
    ⟨fun h => ⟨h.1, List.all_eq_true.1 h.2⟩, fun h => ⟨h.ne_empty, List.all_eq_true.2 h.chars⟩⟩

/-- Whether an entry is a text without double quotes under a plain name that is not `style`. -/
def IsPlainEntry (e : String × AttrValue) : Prop :=
  IsPlainName e.1 ∧ e.1 ≠ "style" ∧ ∃ s, e.2 = .text s ∧ '"' ∉ s.toList

/-- Whether a node is a text. -/
def Node.isText : Node → Bool
  | .text _ => true
  | .element _ _ _ => false

mutual

/-- Whether a node can be read back from what is written for it. -/
def Node.IsPrintable : Node → Prop
  | .text s => s ≠ "" ∧ '<' ∉ s.toList
  | .element tag attrs children =>
    IsPlainName tag ∧ (∀ e ∈ attrs.entries, IsPlainEntry e) ∧ ArePrintable children

/-- Whether neighbouring nodes can be read back: none of them is lost, and no two texts run
    together. -/
def ArePrintable : List Node → Prop
  | [] => True
  | n :: ns =>
    n.IsPrintable ∧ (n.isText = true → ∀ m ∈ ns.head?, m.isText = false) ∧ ArePrintable ns

end

/-- Whether top-level nodes can be read back: outside all elements no text is blank, and a mark at
    the very front would be taken for a byte order mark. -/
structure IsPrintableForest (nodes : List Node) : Prop where
  printable : ArePrintable nodes
  not_blank : ∀ s, .text s ∈ nodes → Text.isBlank s.toList = false
  no_mark : ∀ s, nodes.head? = some (.text s) → s.toList.head? ≠ some '\uFEFF'

/-! ## Plain names -/

/-- A character of a plain name is no space. -/
private theorem isMarkupSpace_of_isNameChar {c : Char} (h : isNameChar c = true) :
    isMarkupSpace c = false := by
  simp only [isNameChar, Bool.and_eq_true, Bool.not_eq_true'] at h
  exact h.1

/-- A character of a plain name is no mark of a tag. -/
private theorem not_mem_tagMarks_of_isNameChar {c : Char} (h : isNameChar c = true) :
    c ∉ tagMarks := by
  simp only [isNameChar, Bool.and_eq_true, Bool.not_eq_true'] at h
  simpa using h.2

/-- A plain name can be that of a tag. -/
private theorem IsPlainName.isTagName {name : String} (h : IsPlainName name) : IsTagName name := by
  constructor
  · exact fun c hc => isMarkupSpace_of_isNameChar (h.chars c hc)
  · intro c hc
    -- the characters that make a tag something else are marks
    have hmarks := not_mem_tagMarks_of_isNameChar (h.chars c (List.mem_of_mem_head? hc))
    simp only [tagMarks, List.mem_cons, List.not_mem_nil, not_or] at hmarks
    simp [opensTag, hmarks]

/-- A plain name holds no quote and no closing bracket. -/
theorem IsPlainName.isPlain {name : String} (h : IsPlainName name) : IsPlain name.toList := by
  intro c hc
  have hmarks := not_mem_tagMarks_of_isNameChar (h.chars c hc)
  simp only [tagMarks, List.mem_cons, List.not_mem_nil, not_or] at hmarks
  simp [hmarks]

/-- A plain name can be the key of an attribute. -/
private theorem IsPlainName.isKey {name : String} (h : IsPlainName name) : IsKey name.toList := by
  -- the first character may be anything but a space, the others may not be an equals sign either
  obtain ⟨c, cs, hcs⟩ := List.exists_cons_of_ne_nil (mt String.toList_eq_nil_iff.1 h.ne_empty)
  have hchars := h.chars
  rw [hcs] at hchars ⊢
  refine ⟨c, cs, rfl, isMarkupSpace_of_isNameChar (hchars c List.mem_cons_self), ?_⟩
  intro d hd
  have hd' := hchars d (List.mem_cons_of_mem _ hd)
  have hmarks := not_mem_tagMarks_of_isNameChar hd'
  simp only [tagMarks, List.mem_cons, List.not_mem_nil, not_or] at hmarks
  simp [isKeyChar, isMarkupSpace_of_isNameChar hd', hmarks]

/-- A plain name does not end like an empty tag. -/
private theorem IsPlainName.getLast?_ne_slash {name : String} (h : IsPlainName name) :
    name.toList.getLast? ≠ some '/' := by
  intro hlast
  exact not_mem_tagMarks_of_isNameChar (h.chars '/' (List.mem_of_getLast? hlast)) (by decide)

/-- Plain entries are those of attributes that can be written, and that are read back as they
    are. -/
theorem exists_plainEntries {entries : List (String × AttrValue)}
    (hnodup : (entries.map Prod.fst).Nodup) (h : ∀ e ∈ entries, IsPlainEntry e) :
    ∃ items, ArePlain items ∧ entries = plainEntries items ∧
      ∀ a ∈ items, IsPlainName a.key ∧ '"' ∉ a.value.toList := by
  -- over the entries: their keys are distinct, so a new attribute has a key of its own
  induction entries with
  | nil => exact ⟨[], ⟨⟨by simp, by simp⟩, by simp⟩, rfl, by simp⟩
  | cons e entries ih =>
    obtain ⟨key, value⟩ := e
    rw [List.map_cons, List.nodup_cons] at hnodup
    rw [List.forall_mem_cons] at h
    obtain ⟨⟨hname, hstyle, s, hs, hquote⟩, hentries⟩ := h
    obtain rfl : value = .text s := hs
    obtain ⟨items, hitems, rfl, hplain⟩ := ih hnodup.2 hentries
    have hwritable : (⟨key, s⟩ : Attribute).IsWritable :=
      ⟨hname.isKey, quoteFor_not_mem (.inl rfl) hquote⟩
    have hfresh : ∀ a ∈ items, a.key ≠ key := by
      intro a ha hkey
      exact hnodup.1 (by simpa [plainEntries] using ⟨a, ha, hkey⟩)
    refine ⟨⟨key, s⟩ :: items, ⟨⟨?_, ?_⟩, ?_⟩, rfl, ?_⟩
    · exact List.forall_mem_cons.2 ⟨hwritable, hitems.each⟩
    · rw [List.map_cons, List.nodup_cons]
      refine ⟨?_, hitems.distinct⟩
      intro hmem
      obtain ⟨a, ha, hkey⟩ := List.mem_map.1 hmem
      exact hfresh a ha (String.toList_inj.1 hkey)
    · exact List.forall_mem_cons.2 ⟨hstyle, hitems.no_style⟩
    · exact List.forall_mem_cons.2 ⟨⟨hname, hquote⟩, hplain⟩

/-- The start of an element with plain names is legible. -/
private theorem isLegible_start_of_isPlainName {tag : String} {items : List Attribute}
    (htag : IsPlainName tag) (hitems : AreWritable items)
    (hplain : ∀ a ∈ items, IsPlainName a.key ∧ '"' ∉ a.value.toList) (opened : List String) :
    (Token.start tag (plainEntries items)).IsLegible opened := by
  rw [isLegible_start_iff]
  refine ⟨fun a ha => (hplain a ha).2, isLegible_of_hasPlainNames ?_ hitems⟩
  exact ⟨htag.ne_empty, htag.getLast?_ne_slash, htag.isPlain, fun a ha => (hplain a ha).1.isPlain⟩

/-! ## The tokens of printable trees -/

/-- Whether tokens are read back from what is written for them. -/
structure ReadsBack (opened : List String) (ts : List Token) : Prop where
  writable : WritableTokens opened ts
  apart : ApartTexts ts
  legible : LegibleTokens opened ts

mutual

/-- A printable node in front of tokens that are read back is read back, too. -/
private theorem Node.readsBack_tokens (n : Node) (h : n.IsPrintable) {opened : List String}
    {us : List Token} (hus : ReadsBack opened us)
    (hblank : opened = [] → ∀ s, n = .text s → Text.isBlank s.toList = false)
    (hfront : n.isText = true → ∀ u ∈ us.head?, u.isText = false) :
    ReadsBack opened (n.tokens ++ us) := by
  cases n with
  | text s =>
    obtain ⟨hne, hlt⟩ := h
    have hlegible : (Token.text s).IsLegible opened := ⟨hne, fun ho => hblank ho s rfl⟩
    exact ⟨⟨hlt, hus.writable⟩, hus.apart.cons fun u hu _ => hfront rfl u hu,
      ⟨hlegible, hus.legible⟩⟩
  | element tag attrs children =>
    obtain ⟨htag, hentries, hchildren⟩ := h
    obtain ⟨items, hitems, hattrs, hplain⟩ := exists_plainEntries attrs.nodup_keys hentries
    have hclosed : isClosed none tag.toList = true := isClosed_of_plain htag.isPlain
    -- the end of the element, and its children in front of it
    have hstop : ReadsBack (tag :: opened) (.stop tag :: us) :=
      ⟨⟨⟨htag.isTagName, rfl⟩, hus.writable⟩, hus.apart.cons (by simp [Token.isText]),
        ⟨hclosed, hus.legible⟩⟩
    have hinner := readsBack_nodesTokens children hchildren hstop (by simp) (by simp [Token.isText])
    have hstart := isLegible_start_of_isPlainName htag hitems.toAreWritable hplain opened
    have htokens : (Node.element tag attrs children).tokens ++ us =
        .start tag (plainEntries items) :: (nodesTokens children ++ .stop tag :: us) := by
      simp [Node.tokens, hattrs]
    rw [htokens]
    exact ⟨⟨⟨htag.isTagName, items, hitems, rfl⟩, hinner.writable⟩,
      hinner.apart.cons (by simp [Token.isText]), ⟨hstart, hinner.legible⟩⟩

/-- Printable nodes in front of tokens that are read back are read back, too. -/
theorem readsBack_nodesTokens (ns : List Node) (h : ArePrintable ns) {opened : List String}
    {us : List Token} (hus : ReadsBack opened us)
    (hblank : opened = [] → ∀ s, .text s ∈ ns → Text.isBlank s.toList = false)
    (hfront : ∀ u ∈ us.head?, u.isText = false) :
    ReadsBack opened (nodesTokens ns ++ us) := by
  cases ns with
  | nil => exact hus
  | cons n ns =>
    obtain ⟨hn, happ, hns⟩ := h
    have hrest := readsBack_nodesTokens ns hns hus
      (fun ho s hs => hblank ho s (List.mem_cons_of_mem _ hs)) hfront
    rw [nodesTokens, List.append_assoc]
    refine n.readsBack_tokens hn hrest ?_ ?_
    · rintro ho s rfl
      exact hblank ho s List.mem_cons_self
    · intro htext u hu
      -- behind a text stands an element, or what follows all the nodes
      cases ns with
      | nil => exact hfront u hu
      | cons m ns =>
        have hm := happ htext m rfl
        cases m with
        | text s => cases hm
        | element tag attrs children =>
          cases hu
          rfl

end

/-! ## Parsing what was written -/

/-- A document is that of a source exactly if the text behind the byte order mark has its tokens. -/
theorem parse_eq_ok_iff_readTokens? {x : String} {doc : Document} :
    Document.parse x = .ok doc ↔
      readTokens? [] (Reading.dropByteOrderMark x.toList) = some doc.tokens := by
  rw [parse_eq_ok_iff, sourceTokens?, readTokens?, Reading.ofText]
  split <;> simp_all

/-- Printable nodes are written with an angle bracket in front, or with the text they start with. -/
private theorem head?_renderNodesChars {ns : List Node} (h : ArePrintable ns) :
    ∀ c ∈ (renderNodesChars ns).head?,
      c = '<' ∨ ∃ s, ns.head? = some (.text s) ∧ s.toList.head? = some c := by
  intro c hc
  cases ns with
  | nil => cases hc
  | cons n ns =>
    rw [renderNodesChars_cons] at hc
    cases n with
    | element tag attrs children =>
      rw [Node.renderChars_element] at hc
      exact .inl (by simpa [eq_comm] using hc)
    | text s =>
      obtain ⟨d, ds, hs⟩ := List.exists_cons_of_ne_nil (mt String.toList_eq_nil_iff.1 h.1.1)
      rw [Node.renderChars_text, hs] at hc
      exact .inr ⟨s, rfl, by rw [hs]; exact hc⟩

/-- Parsing undoes writing on printable trees; so no two of them are written alike. -/
theorem parse_renderNodes {nodes : List Node} (h : IsPrintableForest nodes) :
    Document.parse (renderNodes nodes) = .ok ⟨nodes⟩ ∧
      ∀ nodes', IsPrintableForest nodes' → renderNodes nodes' = renderNodes nodes →
        nodes' = nodes := by
  have hparse : ∀ ns, IsPrintableForest ns → Document.parse (renderNodes ns) = .ok ⟨ns⟩ := by
    intro ns hns
    have hread : ReadsBack [] (nodesTokens ns ++ []) :=
      readsBack_nodesTokens ns hns.printable ⟨rfl, .nil, trivial⟩ (fun _ => hns.not_blank)
        (by simp)
    have hfront : '\uFEFF' ∉ (renderNodesChars ns).head? := by
      intro hc
      rcases head?_renderNodesChars hns.printable _ hc with hlt | ⟨s, hs, hmark⟩
      · exact absurd hlt (by decide)
      · exact hns.no_mark s hs hmark
    rw [parse_eq_ok_iff_readTokens?, renderNodes, String.toList_ofList,
      Reading.dropByteOrderMark_eq_self hfront, renderNodesChars_eq]
    rw [List.append_nil] at hread
    exact (readTokens?_renderTokens hread.writable hread.apart).2 hread.legible
  -- trees that are written alike are both what parsing makes of the one text
  refine ⟨hparse nodes h, ?_⟩
  intro nodes' h' heq
  have hdoc := (hparse nodes' h').symm.trans (heq ▸ hparse nodes h)
  exact congrArg Document.nodes (Except.ok.inj hdoc)

/-- Nodes with a bracket and a single quote in values, a blank text inside an element, an element
    without content, and texts at the top level. -/
def mixedForest : List Node :=
  [.text "x\"", .element "svg" ⟨[("a", .text "1>"), ("b:c", .text "'")], by decide⟩
    [.text " ", .element "g" .empty [], .text "&lt;"], .text "y"]

/-- Texts in front of an element, inside it and behind it are read back, with an entity that stays
    as it is written. -/
theorem parse_renderNodes_mixedForest :
    renderNodes mixedForest = "x\"<svg a=\"1>\" b:c=\"'\"> <g></g>&lt;</svg>y" ∧
      Document.parse (renderNodes mixedForest) = .ok ⟨mixedForest⟩ := by
  have hnames : IsPlainName "svg" ∧ IsPlainName "g" ∧ IsPlainName "a" ∧ IsPlainName "b:c" := by
    decide
  -- the double quote stands in a text, where it may
  have hprintable : ArePrintable mixedForest := by
    simp [mixedForest, ArePrintable, Node.IsPrintable, Node.isText, IsPlainEntry, hnames,
      OrderedMap.empty]
  have hforest : IsPrintableForest mixedForest := by
    refine ⟨hprintable, ?_, ?_⟩
    · intro s hs
      have hs' : s = "x\"" ∨ s = "y" := by simpa [mixedForest] using hs
      rcases hs' with rfl | rfl <;> decide
    · intro s hs
      obtain rfl : "x\"" = s := by simpa [mixedForest] using hs
      decide
  exact ⟨by decide +kernel, (parse_renderNodes hforest).1⟩

end IconCompiler.Markup
