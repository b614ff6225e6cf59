import IconCompiler.Proofs.Markup.TagReading
import IconCompiler.Proofs.Markup.WrittenTokens

/-!
# Reading written start tags

A start tag with all its values between double quotes is read as the same start tag unless a value
has a double quote in it, a name opens a quote, or a slash at its end makes it empty. A value with a
double quote breaks off there, and then the tag cannot be read as what it was, whatever follows.

## Key results

- `not_mem_of_ofContent`: a tag with a double quote in a value is read as another one
- `readTokens?_start`: exactly the legible start tags are read back
-/

namespace IconCompiler.Markup

open EventView Reading

/-! ## Entries without styles -/

/-- The entries of attributes that are no styles. -/
def plainEntries (attrs : List Attribute) : List (String × AttrValue) :=
  attrs.map fun a => (a.key, .text a.value)

/-- Whether attributes can be written in one tag, and none is a style. -/
structure ArePlain (attrs : List Attribute) : Prop extends AreWritable attrs where
  no_style : ∀ a ∈ attrs, a.key ≠ "style"

/-- An attribute that is no style stands for its value as it is, and no other attribute does. -/
private theorem entry?_eq_text_iff {a b : Attribute} (h : a.key ≠ "style") :
    b.entry? = some (a.key, .text a.value) ↔ b = a := by
  obtain ⟨key, value⟩ := a
  obtain ⟨key', value'⟩ := b
  have hne : "style" ≠ key := Ne.symm h
  rw [Attribute.entry?]
  split
  · -- a style stands under its own key, whatever its value
    rename_i hstyle
    have hkey : key' ≠ key := fun hkey => hne (hstyle.symm.trans hkey)
    cases decodeEntities value' <;> simp [Except.toOption, hne, hkey]
  · simp

/-- Attributes that are no styles are told by their entries. -/
private theorem mapM_entry?_eq_plainEntries {attrs items : List Attribute}
    (h : ∀ a ∈ attrs, a.key ≠ "style") :
    items.mapM Attribute.entry? = some (plainEntries attrs) ↔ items = attrs := by
  induction items generalizing attrs with
  | nil => cases attrs <;> simp [plainEntries]
  | cons b items ih =>
    rw [List.mapM_cons]
    cases attrs with
    | nil => cases b.entry? <;> cases items.mapM Attribute.entry? <;> simp [plainEntries]
    | cons a attrs =>
      -- the first entry tells the first attribute, and the others tell the rest
      rw [List.cons.injEq, ← entry?_eq_text_iff (h a List.mem_cons_self),
        ← ih fun c hc => h c (List.mem_cons_of_mem _ hc)]
      cases b.entry? <;> cases items.mapM Attribute.entry? <;> simp [plainEntries]

/-- The entries of attributes that are no styles come from these attributes, without a fault, and
    from no others. -/
theorem entries?_eq_plainEntries {attrs : List Attribute} {l : AttributeList}
    (h : ∀ a ∈ attrs, a.key ≠ "style") :
    l.entries? = some (plainEntries attrs) ↔ l = ⟨attrs, none⟩ := by
  obtain ⟨items, fault⟩ := l
  rw [AttributeList.entries?]
  split
  · rename_i hfault
    rw [mapM_entry?_eq_plainEntries h]
    simp_all
  · rename_i hfault
    simp_all

/-! ## Attributes between double quotes -/

/-- A value without double quotes is written between them. -/
private theorem renderEntry_eq {a : Attribute} (h : '"' ∉ a.value.toList) :
    renderEntry (a.key, .text a.value) = renderAttribute a := by
  -- single quotes are only used around a double quote
  have hquote : quoteFor a.value = '"' := by
    rw [quoteFor, if_neg]
    simpa using h
  simp [renderEntry, AttrValue.renderChars, renderAttribute, hquote]

/-- Between double quotes, a start tag is written as cleaning writes it. -/
private theorem startText_plainEntries {tag : String} {attrs : List Attribute}
    (h : ∀ a ∈ attrs, '"' ∉ a.value.toList) :
    startText tag (plainEntries attrs) = tagText tag attrs := by
  rw [startText, tagText, plainEntries, List.flatMap_map]
  rw [List.flatMap_def, List.flatMap_def, List.map_congr_left fun a ha => renderEntry_eq (h a ha)]

/-- Spaces end where something else stands. -/
private theorem dropWhile_space_append {space cs : List Char} {c : Char}
    (h : ∀ d ∈ space, isMarkupSpace d = true) (hc : isMarkupSpace c = false) :
    (space ++ c :: cs).dropWhile isMarkupSpace = c :: cs := by
  rw [List.dropWhile_append_of_pos h, List.dropWhile_cons_of_neg (by simp [hc])]

/-- Attributes that are written between double quotes are read as others if a double quote occurs
    in one of their values: the value breaks off there. -/
private theorem not_mem_of_readAttributes {attrs : List Attribute} (hattrs : AreWritable attrs)
    {seen : List (List Char × Nat)} {pos : Nat} {cs more rest : List Char}
    (hread : readAttributes seen pos cs = ⟨attrs, none⟩)
    (hcs : cs ++ more = (plainEntries attrs).flatMap renderEntry ++ rest) :
    ∀ a ∈ attrs, '"' ∉ a.value.toList := by
  -- over the attributes: each reading takes one written entry off the front of both texts
  induction attrs generalizing seen pos cs with
  | nil => exact List.forall_mem_nil _
  | cons a attrs ih =>
    cases hnext : nextAttribute seen pos cs with
    | done =>
      rw [readAttributes_of_done hnext] at hread
      cases hread
    | fault f =>
      rw [readAttributes_of_fault hnext] at hread
      cases hread
    | item key start value pos' rest' =>
      rw [readAttributes_of_item hnext] at hread
      simp only [AttributeList.cons, AttributeList.mk.injEq, List.cons.injEq] at hread
      have hkey : a.key.toList = key := by rw [← hread.1.1, String.toList_ofList]
      have hvalue : a.value.toList = value := by rw [← hread.1.1, String.toList_ofList]
      obtain ⟨-, -, before, between, space, q, hspaces, hq, hqv, rfl⟩ :=
        nextAttribute_eq_item hnext
      obtain ⟨c, key', hkey', hc, -⟩ := (hattrs.each a List.mem_cons_self).key
      rw [hkey] at hkey'
      subst hkey'
      -- both texts are spaces, the key, an equals sign, a quote, the value and the quote
      have hwritten : (plainEntries (a :: attrs)).flatMap renderEntry ++ rest =
          ' ' :: c :: (key' ++ '=' :: '"' :: (value ++ '"' ::
            ((plainEntries attrs).flatMap renderEntry ++ rest))) := by
        simp [plainEntries, renderEntry, AttrValue.renderChars, hkey, hvalue]
      have htext :
          before ++ (c :: key' ++ (between ++ '=' :: (space ++ q :: (value ++ q :: rest')))) ++
            more = before ++ c :: (key' ++ (between ++ '=' :: (space ++ q :: (value ++ q ::
              (rest' ++ more))))) := by
        simp
      rw [htext, hwritten] at hcs
      have hquote : isMarkupSpace q = false := by rcases hq with rfl | rfl <;> decide
      simp only [List.forall_mem_append] at hspaces
      obtain ⟨⟨hspace₁, hspace₂⟩, hspace₃⟩ := hspaces
      -- the parts are told from each other one after another, from the left
      have hbefore := congrArg (List.dropWhile isMarkupSpace) hcs
      rw [dropWhile_space_append hspace₁ hc, List.dropWhile_cons_of_pos (by decide),
        List.dropWhile_cons_of_neg (by simp [hc])] at hbefore
      have hkeys := List.append_cancel_left (List.cons.inj hbefore).2
      have hbetween := congrArg (List.dropWhile isMarkupSpace) hkeys
      rw [dropWhile_space_append hspace₂ (by decide), List.dropWhile_cons_of_neg (by decide)]
        at hbetween
      have hafter := congrArg (List.dropWhile isMarkupSpace) (List.cons.inj hbetween).2
      rw [dropWhile_space_append hspace₃ hquote, List.dropWhile_cons_of_neg (by decide)] at hafter
      obtain ⟨rfl, hvalues⟩ := List.cons.inj hafter
      have hrest := (List.cons.inj (List.append_cancel_left hvalues)).2
      have hlist : readAttributes ((c :: key', start) :: seen) pos' rest' = ⟨attrs, none⟩ := by
        rw [← hread.1.2, ← hread.2]
      exact List.forall_mem_cons.2 ⟨hvalue ▸ hqv, ih hattrs.tail hlist hrest⟩

/-- A content that is read as a tag consists of the tag's name and what its attributes are read
    from. -/
private theorem ofContent_eq_append {content : List Char} :
    content = (Tag.ofContent content).name.toList ++ (Tag.ofContent content).body := by
  simp [Tag.ofContent, splitTagName]

/-- A tag that is written with a double quote in a value is read as another one. -/
theorem not_mem_of_ofContent {tag : String} {attrs : List Attribute} (hattrs : AreWritable attrs)
    {content more rest : List Char}
    (hcs : startText tag (plainEntries attrs) ++ rest = content ++ more)
    (h : (Tag.ofContent content).name = tag ∧
      (Tag.ofContent content).attributes = ⟨attrs, none⟩) :
    ∀ a ∈ attrs, '"' ∉ a.value.toList := by
  obtain ⟨hname, hread⟩ := h
  have hcontent := @ofContent_eq_append content
  rw [hname] at hcontent
  rw [hcontent, startText, List.append_assoc, List.append_assoc] at hcs
  rw [Tag.attributes] at hread
  exact not_mem_of_readAttributes hattrs hread (List.append_cancel_left hcs).symm

/-! ## Start tags -/

/-- Whether a token, written while the elements `opened` are open, can be told from every other
    one. -/
def Token.IsLegible (opened : List String) : Token → Prop
  | .start tag attrs =>
    (∀ e ∈ attrs, ∀ s, e.2 = .text s → '"' ∉ s.toList) ∧
      isClosed none (startText tag attrs) = true ∧
        (attrs = [] → tag.toList.getLast? ≠ some '/')
  | .stop tag => isClosed none tag.toList = true
  | .text s => s ≠ "" ∧ (opened = [] → Text.isBlank s.toList = false)

/-- A start tag is legible as a token if it is as an event, and no value holds a double quote. -/
theorem isLegible_start_iff {opened : List String} {tag : String} {attrs : List Attribute} :
    (Token.start tag (plainEntries attrs)).IsLegible opened ↔
      (∀ a ∈ attrs, '"' ∉ a.value.toList) ∧
        (EventView.start tag ⟨attrs, none⟩).IsLegible := by
  -- the entries are the attributes, with their values as texts
  have hvalues : (∀ e ∈ plainEntries attrs, ∀ s, e.2 = .text s → '"' ∉ s.toList) ↔
      ∀ a ∈ attrs, '"' ∉ a.value.toList := by
    simp [plainEntries]
  have hnil : plainEntries attrs = [] ↔ attrs = [] := List.map_eq_nil_iff
  rw [Token.IsLegible, hvalues, hnil, EventView.IsLegible]
  constructor
  · intro h
    obtain ⟨h, hclosed, hslash⟩ := h
    exact ⟨h, startText_plainEntries h ▸ hclosed, hslash⟩
  · intro h
    obtain ⟨h, hclosed, hslash⟩ := h
    exact ⟨h, (startText_plainEntries h).symm ▸ hclosed, hslash⟩

/-- Behind the bracket that opens a written tag stands nothing that makes it something else. -/
theorem front_startText {tag : String} {attrs : List Attribute} (hname : IsTagName tag)
    (rest : List Char) :
    ∀ c ∈ (startText tag (plainEntries attrs) ++ '>' :: rest).head?, opensTag c := by
  intro c hc
  rw [startText, List.append_assoc, List.head?_append] at hc
  cases hn : tag.toList.head? with
  | some d =>
    rw [hn] at hc
    exact hname.front c (by rw [hn]; exact hc)
  | none =>
    -- without a name, the space of the first entry comes next, or the closing bracket
    rw [hn, Option.none_or] at hc
    cases attrs with
    | nil =>
      cases hc
      exact ⟨by decide, by decide, by decide⟩
    | cons a attrs =>
      simp only [plainEntries, List.map_cons, List.flatMap_cons, renderEntry, List.cons_append,
        List.head?_cons, Option.mem_def, Option.some.injEq] at hc
      subst hc
      exact ⟨by decide, by decide, by decide⟩

/-- What a construct in front of such a text can be. -/
private theorem Scans.eq_tagEvent {opened : List String} {cs rest : List Char} {e : Event}
    (h : Scans opened cs e rest) (hfront : ∀ c ∈ cs.head?, opensTag c) :
    ∃ content, cs = content ++ '>' :: rest ∧ e = tagEvent content ∧
      isClosed none content = true := by
  cases h with
  | @tag content rest closed front => exact ⟨content, rfl, rfl, closed⟩
  | close => exact absurd rfl (hfront '/' rfl).2.2
  | cdata | comment | doctype => exact absurd rfl (hfront '!' rfl).1
  | instruction => exact absurd rfl (hfront '?' rfl).2.1

/-- The first token of a tag tells its name and its attributes. -/
private theorem eq_of_start_eq {name tag : String} {l : AttributeList} {attrs : List Attribute}
    (hattrs : ArePlain attrs) {front us vs ts : List Token}
    (hus : (l.entries?.map fun es => Token.start name es :: front) = some us)
    (happ : .start tag (plainEntries attrs) :: ts = us ++ vs) :
    name = tag ∧ l = ⟨attrs, none⟩ ∧ ts = front ++ vs := by
  obtain ⟨es, hes, rfl⟩ := Option.map_eq_some_iff.1 hus
  rw [List.cons_append, List.cons.injEq, Token.start.injEq] at happ
  obtain ⟨⟨htag, rfl⟩, htail⟩ := happ
  exact ⟨htag.symm, (entries?_eq_plainEntries hattrs.no_style).1 hes, htail⟩

/-- A start tag is read back, and what follows it as before, exactly if it is legible. -/
theorem readTokens?_start {tag : String} {attrs : List Attribute} (hname : IsTagName tag)
    (hattrs : ArePlain attrs) (opened : List String) (rest : List Char) (ts : List Token) :
    readTokens? opened ((Token.start tag (plainEntries attrs)).renderChars ++ rest) =
        some (.start tag (plainEntries attrs) :: ts) ↔
      (Token.start tag (plainEntries attrs)).IsLegible opened ∧
        readTokens? (tag :: opened) rest = some ts := by
  have htext : (Token.start tag (plainEntries attrs)).renderChars ++ rest =
      '<' :: (startText tag (plainEntries attrs) ++ '>' :: rest) := by
    simp [Token.renderChars]
  rw [htext, isLegible_start_iff]
  constructor
  · intro h
    obtain ⟨e, size, rest', us, vs, hscan, hus, hvs, happ⟩ := exists_of_readTokens? h
    obtain ⟨content, hcs, rfl, hclosed⟩ :=
      (scans_of_scanMarkup hscan).eq_tagEvent (front_startText hname rest)
    by_cases hlast : content.getLast? = some '/'
    · -- an empty tag would have to be the written tag without its slash
      obtain ⟨init, rfl⟩ := List.getLast?_eq_some_iff.1 hlast
      rw [tagEvent, if_pos hlast, List.dropLast_concat, tokensFrom?_of_kept rfl rfl, Event.view,
        EventView.tokens?] at hus
      obtain ⟨hn, ha, -⟩ := eq_of_start_eq hattrs hus happ
      have hvalues : ∀ a ∈ attrs, '"' ∉ a.value.toList :=
        not_mem_of_ofContent hattrs.toAreWritable (by rw [hcs, List.append_assoc]) ⟨hn, ha⟩
      rw [startText_plainEntries hvalues, List.append_assoc] at hcs
      have hinit : init = tagText tag attrs :=
        eq_tagText_of_ofContent hname hattrs.toAreWritable (by decide) hcs ⟨hn, ha⟩
      subst hinit
      simpa using List.append_cancel_left hcs
    · rw [tagEvent, if_neg hlast] at hus hvs
      rw [tokensFrom?_of_kept rfl rfl, Event.view, EventView.tokens?] at hus
      obtain ⟨hn, ha, rfl⟩ := eq_of_start_eq hattrs hus happ
      -- the tag that is read is the one that is written, so the same text follows both
      have hvalues : ∀ a ∈ attrs, '"' ∉ a.value.toList :=
        not_mem_of_ofContent hattrs.toAreWritable hcs ⟨hn, ha⟩
      rw [startText_plainEntries hvalues] at hcs
      have hcontent : content = tagText tag attrs :=
        eq_tagText_of_ofContent hname hattrs.toAreWritable (by decide) hcs ⟨hn, ha⟩
      subst hcontent
      obtain rfl : rest = rest' := (List.cons.inj (List.append_cancel_left hcs)).2
      have hslash : attrs = [] → tag.toList.getLast? ≠ some '/' := by
        rintro rfl
        simpa [tagText] using hlast
      rw [Event.openedAfter, hn] at hvs
      exact ⟨⟨hvalues, hclosed, hslash⟩, hvs⟩
  · intro h
    obtain ⟨⟨hvalues, hlegible⟩, hrest⟩ := h
    obtain ⟨t, size, hscan, hn, ha⟩ := scanMarkup_start hname hattrs.toAreWritable hlegible opened
      rest
    have hentries := (entries?_eq_plainEntries hattrs.no_style).2 ha
    rw [startText_plainEntries hvalues, readTokens?_event hscan, tokensFrom?_of_kept rfl rfl]
    simp [Event.view, EventView.tokens?, hentries, hn, Event.openedAfter, hrest]

end IconCompiler.Markup
