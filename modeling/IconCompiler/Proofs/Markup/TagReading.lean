import IconCompiler.Proofs.Markup.Delivery

/-!
# Reading written tags

A written tag is read as that tag again, unless it cannot be told from another one: a tag with an
open quote in a name, one that a slash at the end of its name makes empty, or an empty one without
a name, which is written like a closing tag. `IsLegible` rules these out, and nothing else has to be
ruled out.

## Key results

- `isLegible_of_hasPlainNames`: plain names make a tag legible
- `scanMarkup_start`, `scanMarkup_empty`: legible tags are read back
- `isLegible_of_scanMarkup_start`, `isLegible_of_scanMarkup_empty`: no other tags are
-/

namespace IconCompiler.Markup

/-- A tag as it is written between its brackets. -/
def tagText (name : String) (attrs : List Attribute) : List Char :=
  name.toList ++ attrs.flatMap renderAttribute

/-- Whether an event, written as cleaning writes it, can be told from every other one. -/
def EventView.IsLegible : EventView → Prop
  | .start name attrs =>
    isClosed none (tagText name attrs.items) = true ∧
      (attrs.items = [] → name.toList.getLast? ≠ some '/')
  | .empty name attrs =>
    isClosed none (tagText name attrs.items) = true ∧ (attrs.items = [] → name ≠ "")
  | _ => True

/-- Whether no character of a text opens a quote or ends a tag. -/
def IsPlain (cs : List Char) : Prop :=
  ∀ c ∈ cs, c ≠ '"' ∧ c ≠ '\'' ∧ c ≠ '>'

/-- Whether the names of an event are what names of elements and attributes usually are. -/
def EventView.HasPlainNames : EventView → Prop
  | .start name attrs | .empty name attrs =>
    name ≠ "" ∧ name.toList.getLast? ≠ some '/' ∧ IsPlain name.toList ∧
      ∀ a ∈ attrs.items, IsPlain a.key.toList
  | _ => True

/-- Whether the attributes of an event can be written. -/
def EventView.HasWritableAttributes : EventView → Prop
  | .start _ attrs | .empty _ attrs => AreWritable attrs.items
  | _ => True

/-! ## Legible tags -/

/-- Written attributes are closed if their keys are plain. -/
private theorem isClosed_attributes {attrs : List Attribute} (hattrs : AreWritable attrs)
    (hkeys : ∀ a ∈ attrs, IsPlain a.key.toList) :
    isClosed none (attrs.flatMap renderAttribute) = true := by
  induction attrs with
  | nil => rfl
  | cons a attrs ih =>
    -- no quote is open in front of the value, and none behind it
    have hfront : isClosed none (' ' :: a.key.toList ++ ['=']) = true := by
      apply isClosed_of_plain
      intro c hc
      simp only [List.cons_append, List.mem_cons, List.mem_append, List.not_mem_nil,
        or_false] at hc
      rcases hc with rfl | hc | rfl
      · decide
      · exact hkeys a List.mem_cons_self c hc
      · decide
    have hvalue :
        isClosed none (quoteFor a.value :: (a.value.toList ++ [quoteFor a.value])) = true :=
      isClosed_quoted (isQuote_quoteFor a.value) (hattrs.each a List.mem_cons_self).value
    have htext : (a :: attrs).flatMap renderAttribute = ' ' :: a.key.toList ++ ['='] ++
        (quoteFor a.value :: (a.value.toList ++ [quoteFor a.value])) ++
          attrs.flatMap renderAttribute := by
      simp [renderAttribute]
    rw [htext, List.append_assoc, isClosed_append hfront, isClosed_append hvalue]
    exact ih hattrs.tail fun b hb => hkeys b (List.mem_cons_of_mem _ hb)

/-- Plain names make an event legible. -/
theorem isLegible_of_hasPlainNames {v : EventView} (h : v.HasPlainNames)
    (hattrs : v.HasWritableAttributes) : v.IsLegible := by
  cases v with
  | start name attrs =>
    obtain ⟨-, hslash, hname, hkeys⟩ := h
    refine ⟨?_, fun _ => hslash⟩
    -- behind a plain name no quote is open
    rw [tagText, isClosed_append (isClosed_of_plain hname)]
    exact isClosed_attributes hattrs hkeys
  | empty name attrs =>
    obtain ⟨hne, -, hname, hkeys⟩ := h
    refine ⟨?_, fun _ => hne⟩
    rw [tagText, isClosed_append (isClosed_of_plain hname)]
    exact isClosed_attributes hattrs hkeys
  | close | text | cdata | comment | instruction | doctype => trivial

/-! ## Tags -/

/-- The name of a written tag ends where its first attribute, or whatever else does not go on with
    it, stands. -/
private theorem splitTagName_append {name rest : List Char}
    (hname : ∀ c ∈ name, isMarkupSpace c = false)
    (hrest : ∀ c ∈ rest.head?, isMarkupSpace c = true) :
    splitTagName (name ++ rest) = (name, rest) := by
  have hname' : ∀ c ∈ name, (!isMarkupSpace c) = true := by
    intro c hc
    rw [hname c hc]
    rfl
  rw [splitTagName, List.takeWhile_append_of_pos hname', List.dropWhile_append_of_pos hname']
  cases rest with
  | nil => simp
  | cons c rest => simp [hrest c rfl]

/-- Written attributes start with a space. -/
private theorem head?_attributes (attrs : List Attribute) :
    ∀ c ∈ (attrs.flatMap renderAttribute).head?, isMarkupSpace c = true := by
  cases attrs with
  | nil => simp
  | cons a attrs =>
    intro c hc
    simp only [List.flatMap_cons, renderAttribute, List.cons_append, List.head?_cons,
      Option.mem_def, Option.some.injEq] at hc
    rw [← hc]
    decide

/-- The tag whose content is a name and what stands after it. -/
private theorem ofContent_append {name : String} {body : List Char} (hname : IsTagName name)
    (hbody : ∀ c ∈ body.head?, isMarkupSpace c = true) :
    Tag.ofContent (name.toList ++ body) = ⟨name, body⟩ := by
  rw [Tag.ofContent, splitTagName_append hname.no_space hbody]
  simp

private theorem readAttributes_nil (seen : List (List Char × Nat)) (pos : Nat) :
    readAttributes seen pos [] = .nil :=
  readAttributes_of_done (by simp [nextAttribute])

/-- A written tag is read with its name and its attributes. -/
private theorem ofContent_tagText {name : String} {attrs : List Attribute} (hname : IsTagName name)
    (hattrs : AreWritable attrs) :
    (Tag.ofContent (tagText name attrs)).name = name ∧
      (Tag.ofContent (tagText name attrs)).attributes = ⟨attrs, none⟩ := by
  rw [tagText, ofContent_append hname (head?_attributes attrs)]
  -- nothing follows the attributes, so they are all that is read
  obtain ⟨seen, pos, h⟩ := readAttributes_render hattrs [] (fun _ _ => rfl)
    (byteLength name.toList) []
  rw [List.append_nil, readAttributes_nil] at h
  exact ⟨rfl, by rw [Tag.attributes, h]; simp [AttributeList.nil]⟩

/-- A tag that breaks off earlier is read as another one. -/
private theorem ofContent_ne_of_cut {name : String} {attrs : List Attribute}
    (hname : IsTagName name) (hattrs : AreWritable attrs) {content more : List Char} {c : Char}
    (hcut : tagText name attrs = content ++ c :: more) :
    ¬((Tag.ofContent content).name = name ∧
      (Tag.ofContent content).attributes = ⟨attrs, none⟩) := by
  rintro ⟨hn, ha⟩
  -- the attributes break off behind a whole name
  have hbody : ∀ body, content = name.toList ++ body →
      attrs.flatMap renderAttribute = body ++ c :: more → False := by
    rintro body rfl hbody
    have hhead : ∀ d ∈ body.head?, isMarkupSpace d = true := by
      intro d hd
      refine head?_attributes attrs d ?_
      rw [hbody, List.head?_append, Option.mem_def.1 hd]
      rfl
    rw [ofContent_append hname hhead] at ha
    exact readAttributes_ne_of_cut hattrs [] (fun _ _ => rfl) _ hbody ha
  rw [tagText, List.append_eq_append_iff] at hcut
  rcases hcut with ⟨body, rfl, h⟩ | ⟨t, ht, hmore⟩
  · exact hbody body rfl h
  · -- the name itself breaks off, unless nothing of it is missing
    have hspace : ∀ d ∈ content, isMarkupSpace d = false := by
      intro d hd
      exact hname.no_space d (ht ▸ List.mem_append_left t hd)
    -- without a space in it, the content is all name
    have hcontent : (Tag.ofContent content).name = String.ofList content := by
      rw [← List.append_nil content, Tag.ofContent, splitTagName_append hspace (by simp),
        List.append_nil]
    rw [hcontent] at hn
    have htnil : t = [] := by
      have := congrArg List.length ht
      rw [← hn, String.toList_ofList, List.length_append] at this
      exact List.eq_nil_of_length_eq_zero (by omega)
    subst htnil
    exact hbody [] (by simpa using ht.symm) (by simpa using hmore.symm)

/-- A tag that goes on is read as another one. -/
private theorem ofContent_ne_of_longer {name : String} {attrs : List Attribute}
    (hname : IsTagName name) (hattrs : AreWritable attrs) {more : List Char} {c : Char}
    (hc : isMarkupSpace c = false) :
    ¬((Tag.ofContent (tagText name attrs ++ c :: more)).name = name ∧
      (Tag.ofContent (tagText name attrs ++ c :: more)).attributes = ⟨attrs, none⟩) := by
  rintro ⟨hn, ha⟩
  cases attrs with
  | nil =>
    -- the character belongs to the name
    have hlong : (Tag.ofContent (tagText name [] ++ c :: more)).name.toList =
        name.toList ++ c :: more.takeWhile (fun d => !isMarkupSpace d) := by
      have hname' : ∀ d ∈ name.toList, (!isMarkupSpace d) = true := by
        intro d hd
        rw [hname.no_space d hd]
        rfl
      simp [Tag.ofContent, tagText, splitTagName, List.takeWhile_append_of_pos hname', hc]
    rw [hn] at hlong
    simpa using congrArg List.length hlong
  | cons a attrs =>
    -- the character starts another attribute, or a fault
    have hbody : ∀ d ∈ ((a :: attrs).flatMap renderAttribute ++ c :: more).head?,
        isMarkupSpace d = true := by
      intro d hd
      refine head?_attributes (a :: attrs) d ?_
      simpa [renderAttribute] using hd
    rw [tagText, List.append_assoc, ofContent_append hname hbody] at ha
    obtain ⟨seen, pos, h⟩ := readAttributes_render hattrs [] (fun _ _ => rfl)
      (byteLength name.toList) (c :: more)
    rw [Tag.attributes, h] at ha
    simp only [AttributeList.mk.injEq, List.append_right_eq_self] at ha
    cases hnext : nextAttribute seen pos (c :: more) with
    | done =>
      -- only spaces end the attributes
      have hdrop : (c :: more).dropWhile isMarkupSpace = c :: more :=
        List.dropWhile_cons_of_neg (by simp [hc])
      simp only [nextAttribute, hdrop] at hnext
      split at hnext
      · split at hnext
        · cases hnext
        · split at hnext <;> cases hnext
      · cases hnext
    | fault f =>
      rw [readAttributes_of_fault hnext] at ha
      cases ha.2
    | item key start value pos' rest =>
      rw [readAttributes_of_item hnext] at ha
      cases ha.1

/-- A content at the front of a written tag, and of whatever follows it other than space, is the
    whole of that tag if it is read as it. -/
theorem eq_tagText_of_ofContent {name : String} {attrs : List Attribute} (hname : IsTagName name)
    (hattrs : AreWritable attrs) {content rest more : List Char} {c : Char}
    (hc : isMarkupSpace c = false) (hcs : tagText name attrs ++ c :: rest = content ++ more)
    (h : (Tag.ofContent content).name = name ∧
      (Tag.ofContent content).attributes = ⟨attrs, none⟩) :
    content = tagText name attrs := by
  -- the content is the tag, or it is longer, or it is cut
  rw [List.append_eq_append_iff] at hcs
  rcases hcs with ⟨_ | ⟨d, more⟩, hlong, hrest⟩ | ⟨_ | ⟨d, more⟩, hcut, -⟩
  · simpa using hlong
  · -- the content goes on behind the tag
    obtain ⟨rfl, -⟩ := List.cons.inj hrest
    subst hlong
    exact absurd h (ofContent_ne_of_longer hname hattrs hc)
  · simpa using hcut.symm
  · -- the content breaks off inside the tag
    exact absurd h (ofContent_ne_of_cut hname hattrs hcut)

/-- Behind written attributes stands a quote. -/
private theorem getLast?_tagText (name : String) {attrs : List Attribute} (h : attrs ≠ []) :
    (tagText name attrs).getLast? ≠ some '/' := by
  obtain ⟨init, a, rfl⟩ : ∃ init a, attrs = init ++ [a] :=
    ⟨attrs.dropLast, attrs.getLast h, (List.dropLast_concat_getLast h).symm⟩
  have htext : tagText name (init ++ [a]) = name.toList ++ init.flatMap renderAttribute ++
      (' ' :: a.key.toList ++ ['=', quoteFor a.value] ++ a.value.toList) ++
        [quoteFor a.value] := by
    simp [tagText, renderAttribute]
  rw [htext, List.getLast?_concat]
  rcases isQuote_quoteFor a.value with h | h <;> rw [h] <;> decide

/-- A written tag starts like a tag. -/
private theorem front_tagText {name : String} {attrs : List Attribute} (hname : IsTagName name) :
    ∀ c ∈ (tagText name attrs).head?, opensTag c := by
  intro c hc
  rw [tagText, List.head?_append] at hc
  cases hn : name.toList.head? with
  | some d =>
    rw [hn] at hc
    exact hname.front c (by rw [hn]; exact hc)
  | none =>
    rw [hn, Option.none_or] at hc
    have hspace := head?_attributes attrs c hc
    refine ⟨?_, ?_, ?_⟩ <;> rintro rfl <;> exact absurd hspace (by decide)

/-- A legible start tag is read back. -/
theorem scanMarkup_start {name : String} {attrs : List Attribute} (hname : IsTagName name)
    (hattrs : AreWritable attrs) (h : (EventView.start name ⟨attrs, none⟩).IsLegible)
    (opened : List String) (rest : List Char) :
    ∃ tag size, scanMarkup opened (tagText name attrs ++ '>' :: rest) =
      .event (.start tag) size rest ∧ tag.name = name ∧ tag.attributes = ⟨attrs, none⟩ := by
  have hlast : (tagText name attrs).getLast? ≠ some '/' := by
    by_cases ha : attrs = []
    · subst ha
      simpa [tagText] using h.2 rfl
    · exact getLast?_tagText name ha
  refine ⟨.ofContent (tagText name attrs), byteLength (tagText name attrs) + 2, ?_,
    ofContent_tagText hname hattrs⟩
  rw [scanMarkup_tag h.1 (front_tagText hname), tagEvent, if_neg hlast]

/-- Only a legible start tag is read back. -/
theorem isLegible_of_scanMarkup_start {name : String} {attrs : List Attribute}
    (hname : IsTagName name) (hattrs : AreWritable attrs) {opened : List String}
    {rest rest' : List Char} {e : Event} {size : Nat}
    (h : scanMarkup opened (tagText name attrs ++ '>' :: rest) = .event e size rest')
    (he : e.view = .start name ⟨attrs, none⟩) :
    (EventView.start name ⟨attrs, none⟩).IsLegible := by
  generalize hcs : tagText name attrs ++ '>' :: rest = cs at h
  cases scans_of_scanMarkup h with
  | close | cdata | comment | instruction | doctype => cases he
  | @tag content rest' closed front =>
    rw [tagEvent] at he
    split at he
    · cases he
    · rename_i hlast
      simp only [Event.view, EventView.start.injEq] at he
      have hcontent : content = tagText name attrs :=
        eq_tagText_of_ofContent hname hattrs (by decide) hcs he
      subst hcontent
      refine ⟨closed, ?_⟩
      rintro (rfl : attrs = [])
      simpa [tagText] using hlast

/-- A legible empty element is read back. -/
theorem scanMarkup_empty {name : String} {attrs : List Attribute} (hname : IsTagName name)
    (hattrs : AreWritable attrs) (h : (EventView.empty name ⟨attrs, none⟩).IsLegible)
    (opened : List String) (rest : List Char) :
    ∃ tag size, scanMarkup opened (tagText name attrs ++ '/' :: '>' :: rest) =
      .event (.empty tag) size rest ∧ tag.name = name ∧ tag.attributes = ⟨attrs, none⟩ := by
  have hclosed : isClosed none (tagText name attrs ++ ['/']) = true := by
    rw [isClosed_append h.1]
    decide
  -- the tag does not start with the slash that makes it empty
  have hne : tagText name attrs ≠ [] := by
    intro hnil
    rw [tagText, List.append_eq_nil_iff] at hnil
    have hattrs' : attrs = [] := by
      cases attrs with
      | nil => rfl
      | cons a attrs => exact absurd hnil.2 (by simp [renderAttribute])
    exact h.2 hattrs' (by simpa using hnil.1)
  have hfront : ∀ c ∈ (tagText name attrs ++ ['/']).head?, opensTag c := by
    obtain ⟨c, cs, hcs⟩ := List.exists_cons_of_ne_nil hne
    have hfront : ∀ d ∈ (tagText name attrs).head?, opensTag d := front_tagText hname
    rw [hcs] at hfront ⊢
    exact hfront
  refine ⟨.ofContent (tagText name attrs), byteLength (tagText name attrs ++ ['/']) + 2, ?_,
    ofContent_tagText hname hattrs⟩
  rw [← List.singleton_append, ← List.append_assoc, scanMarkup_tag hclosed hfront, tagEvent,
    if_pos (by simp), List.dropLast_concat]

/-- Only a legible empty element is read back. -/
theorem isLegible_of_scanMarkup_empty {name : String} {attrs : List Attribute}
    (hname : IsTagName name) (hattrs : AreWritable attrs) {opened : List String}
    {rest rest' : List Char} {e : Event} {size : Nat}
    (h : scanMarkup opened (tagText name attrs ++ '/' :: '>' :: rest) = .event e size rest')
    (he : e.view = .empty name ⟨attrs, none⟩) :
    (EventView.empty name ⟨attrs, none⟩).IsLegible := by
  generalize hcs : tagText name attrs ++ '/' :: '>' :: rest = cs at h
  cases scans_of_scanMarkup h with
  | close | cdata | comment | instruction | doctype => cases he
  | @tag content rest' closed front =>
    rw [tagEvent] at he
    split at he
    · rename_i hlast
      obtain ⟨init, rfl⟩ := List.getLast?_eq_some_iff.1 hlast
      rw [List.dropLast_concat] at he
      simp only [Event.view, EventView.empty.injEq] at he
      have hcontent : init = tagText name attrs := by
        rw [List.append_assoc] at hcs
        exact eq_tagText_of_ofContent hname hattrs (by decide) hcs he
      subst hcontent
      refine ⟨isClosed_of_isClosed_append (by simp) (by simp) closed, ?_⟩
      rintro (rfl : attrs = []) rfl
      exact (front '/' rfl).2.2 rfl
    · cases he

end IconCompiler.Markup
