import IconCompiler.Proofs.Markup.Building
import IconCompiler.Proofs.Markup.PropNames
import IconCompiler.Proofs.Naming

/-!
# Properties named style

The reader makes a style of an attribute whose name is `style` as it stands. Property names come
later, and more names than that one become `style`: any capitals are lowered, and hyphens at the end
are dropped. Their values are texts, and the last of them takes the place of a style.

## Key results

- `propName_eq_style_iff`: which names become `style`
- `namesStyles_withPropNames_iff`: where the properties named `style` are the styles
-/

namespace IconCompiler.Markup

open Text Naming

/-- The letters of `style`. -/
def styleLetters : List Char :=
  ['s', 't', 'y', 'l', 'e']

/-- Whether a name is `style` up to capitals and hyphens behind it. -/
def SpellsStyle (name : String) : Prop :=
  (name.toList.take 5).map Char.toLower = styleLetters ∧ ∀ c ∈ name.toList.drop 5, c = '-'

instance (name : String) : Decidable (SpellsStyle name) :=
  have : Decidable (∀ c ∈ name.toList.drop 5, c = '-') := List.decidableBAll _ _
  inferInstanceAs (Decidable (_ ∧ _))

/-! ## Names that become style -/

set_option maxRecDepth 4000 in
/-- No letter of `style` is in upper case. -/
private theorem not_mem_upperChar_of_mem_styleLetters {c d : Char} (hd : d ∈ styleLetters) :
    d ∉ upperChar c := by
  intro h
  -- no table for capitals leads to one of the five letters
  have htable : (styleLetters.all fun d => d ≠ '\x00' &&
      upperExpansions.all (fun e => e.2.all fun n => Char.ofNat n ≠ d) &&
      upperRuns.all (fun r => !r.contains (d.toNat - r.shift).toNat) &&
      !(upperChar d).contains d) = true := by
    decide
  have hletter := List.all_eq_true.1 htable d hd
  simp only [Bool.and_eq_true, decide_eq_true_eq, List.all_eq_true, Bool.not_eq_true'] at hletter
  obtain ⟨⟨⟨hzero, hexpansions⟩, hruns⟩, hcapital⟩ := hletter
  rcases mem_mapCase hzero h with ⟨e, he, n, hn, hnd⟩ | ⟨r, hr, hc, hback⟩ | rfl
  · exact hexpansions e he n hn hnd
  · rw [← hback, hruns r hr] at hc
    cases hc
  · -- a letter of `style` is capitalized itself
    rw [List.contains_iff_mem.2 h] at hcapital
    cases hcapital

set_option maxRecDepth 4000 in
/-- Only letters from A to Z are lower-cased to a letter of `style`. -/
private theorem isAscii_of_mem_lowerChar {c d : Char} (hd : d ∈ styleLetters)
    (h : d ∈ lowerChar c) :
    c.toNat < 128 := by
  -- the tables lead to one of the five letters from its capital alone
  have htable : (styleLetters.all fun d => d ≠ '\x00' && d.toNat < 128 &&
      lowerExpansions.all (fun e => e.2.all fun n => Char.ofNat n ≠ d) &&
      lowerRuns.all fun r => !r.contains (d.toNat - r.shift).toNat ||
        (d.toNat - r.shift).toNat < 128) = true := by
    decide
  have hletter := List.all_eq_true.1 htable d hd
  simp only [Bool.and_eq_true, Bool.or_eq_true, decide_eq_true_eq, List.all_eq_true,
    Bool.not_eq_true'] at hletter
  obtain ⟨⟨⟨hzero, hascii⟩, hexpansions⟩, hruns⟩ := hletter
  rcases mem_mapCase hzero h with ⟨e, he, n, hn, hnd⟩ | ⟨r, hr, hc, hback⟩ | rfl
  · exact absurd hnd (hexpansions e he n hn)
  · have hmoved := hruns r hr
    rw [hback, hc] at hmoved
    exact hmoved.resolve_left Bool.noConfusion
  · exact hascii

/-- A text that is lower-cased to letters of `style` holds only characters below 128. -/
private theorem isAscii_of_lowerAfter {before cs : List Char}
    (h : ∀ d ∈ lowerAfter before cs, d ∈ styleLetters) : ∀ c ∈ cs, c.toNat < 128 := by
  induction cs generalizing before with
  | nil => exact List.forall_mem_nil _
  | cons c cs ih =>
    rw [lowerAfter, List.forall_mem_append] at h
    refine List.forall_mem_cons.2 ⟨?_, ih h.2⟩
    have himage := h.1
    split at himage
    · -- neither sigma is a letter of `style`
      split at himage
      · exact absurd (himage 'ς' List.mem_cons_self) (by decide)
      · exact absurd (himage 'σ' List.mem_cons_self) (by decide)
    · obtain ⟨d, ds, hd⟩ := List.exists_cons_of_ne_nil (lowerChar_ne_nil c)
      have hmem : d ∈ lowerChar c := by rw [hd]; exact List.mem_cons_self
      exact isAscii_of_mem_lowerChar (himage d hmem) hmem

/-- A character that is lower-cased below 128 was below 128. -/
private theorem isAscii_of_toLower {c : Char} (h : c.toLower.toNat < 128) : c.toNat < 128 := by
  delta Char.toLower at h
  split at h
  · -- a capital that is lowered lies below `Z`
    rename_i hupper
    have hle : c.toNat ≤ 'Z'.toNat := UInt32.le_iff_toNat_le.1 hupper.2
    exact Nat.lt_of_le_of_lt hle (by decide)
  · exact h

/-- A text is lower-cased to `style` if its letters are, one by one. -/
private theorem lower_eq_styleLetters_iff {cs : List Char} :
    lower cs = styleLetters ↔ cs.map Char.toLower = styleLetters := by
  constructor
  · intro h
    rw [lower] at h
    have hascii : ∀ c ∈ cs, c.toNat < 128 := isAscii_of_lowerAfter fun d hd => h ▸ hd
    rw [← h, lowerAfter_of_isAscii hascii]
  · intro h
    have hascii : ∀ c ∈ cs, c.toNat < 128 := by
      intro c hc
      have hmem : c.toLower ∈ styleLetters := h ▸ List.mem_map_of_mem hc
      have hletters : (styleLetters.all fun d => d.toNat < 128) = true := by decide
      exact isAscii_of_toLower (of_decide_eq_true (List.all_eq_true.1 hletters _ hmem))
    rw [lower, lowerAfter_of_isAscii hascii, h]

/-- A camel-case name is `style` if the hyphenated one is, up to capitals and hyphens behind it. -/
private theorem camelChars_eq_styleLetters_iff {cs : List Char} :
    camelChars cs = styleLetters ↔
      (cs.take 5).map Char.toLower = styleLetters ∧ ∀ c ∈ cs.drop 5, c = '-' := by
  constructor
  · intro h
    obtain ⟨s, rest, hsegments⟩ := List.exists_cons_of_ne_nil (segments_ne_nil cs)
    rw [camelChars, hsegments] at h
    -- every further segment would give a capital
    have hempty : ∀ t ∈ rest, t = [] := by
      intro t ht
      cases t with
      | nil => rfl
      | cons c t =>
        obtain ⟨d, ds, hd⟩ := List.exists_cons_of_ne_nil (upperChar_ne_nil c)
        have hupper : d ∈ upperChar c := by rw [hd]; exact List.mem_cons_self
        have hmem : d ∈ rest.flatMap capitalize :=
          List.mem_flatMap.2 ⟨c :: t, ht, List.mem_append_left _ hupper⟩
        have hletter : d ∈ styleLetters := h ▸ List.mem_append_right _ hmem
        exact absurd hupper (not_mem_upperChar_of_mem_styleLetters hletter)
    have hnone : rest.flatMap capitalize = [] :=
      List.flatMap_eq_nil_iff.2 fun t ht => by rw [hempty t ht]; rfl
    simp only [hnone, List.append_nil] at h
    have hs := lower_eq_styleLetters_iff.1 h
    -- lowering keeps the length here, so the first segment has five characters
    have hlength : s.length = 5 := by
      rw [← List.length_map Char.toLower, hs]
      rfl
    rw [eq_append_replicate_of_segments hsegments hempty, List.take_left' hlength,
      List.drop_left' hlength]
    exact ⟨hs, fun c hc => List.eq_of_mem_replicate hc⟩
  · intro h
    obtain ⟨hletters, hhyphens⟩ := h
    -- no letter of `style` is a hyphen, so the first five characters are one segment
    have hnone : '-' ∉ cs.take 5 := by
      intro hmem
      have hlower : '-' ∈ styleLetters := hletters ▸ List.mem_map_of_mem hmem
      exact absurd hlower (by decide)
    have hsegments := segments_append_replicate hnone (cs.drop 5).length
    rw [← List.eq_replicate_of_mem hhyphens, List.take_append_drop] at hsegments
    rw [camelChars, hsegments]
    simp [capitalize, lower_eq_styleLetters_iff.2 hletters]

set_option maxRecDepth 4000 in
/-- Names that keep their spelling are `style` itself, or nothing like it. -/
private theorem eq_style_iff_of_kept {name : String}
    (h : (keepsName name || mixedCaseAttributes.contains name) = true) :
    name = "style" ↔ SpellsStyle name := by
  have hstyle : SpellsStyle "style" := by decide
  rw [Bool.or_eq_true, keepsName, Bool.or_eq_true, decide_eq_true_eq] at h
  rcases h with (hdata | rfl) | hmixed
  · -- a name of a data attribute starts with another letter
    obtain ⟨cs, hcs⟩ := List.isPrefixOf_iff_prefix.1 hdata
    have hnot : ¬SpellsStyle name := by
      rw [SpellsStyle, ← hcs]
      exact fun hspelled => absurd (List.cons.inj hspelled.1).1 (by decide)
    exact ⟨fun heq => absurd (heq ▸ hstyle) hnot, fun hspelled => absurd hspelled hnot⟩
  · exact ⟨fun _ => hstyle, fun _ => rfl⟩
  · have htable : ∀ n ∈ mixedCaseAttributes, ¬SpellsStyle n := by decide
    have hnot := htable name (List.contains_iff_mem.1 hmixed)
    exact ⟨fun heq => absurd (heq ▸ hstyle) hnot, fun hspelled => absurd hspelled hnot⟩

set_option maxRecDepth 4000 in
/-- The names that become `style` are those that spell it. -/
theorem propName_eq_style_iff (name : String) : propName name = "style" ↔ SpellsStyle name := by
  have hcamel : camelCase name = "style" ↔ SpellsStyle name := by
    rw [SpellsStyle, ← camelChars_eq_styleLetters_iff, camelCase, String.ext_iff,
      String.toList_ofList]
    rfl
  rw [propName]
  split
  · rename_i hkept
    exact eq_style_iff_of_kept hkept
  · split
    · rename_i target hlookup
      -- no name of the table is or becomes `style`
      have htable : ∀ e ∈ renamedAttributes, e.2 ≠ "style" ∧ ¬SpellsStyle e.1 := by decide
      have hnot := htable (name, target) (mem_of_lookup_eq_some hlookup)
      exact ⟨fun heq => absurd heq hnot.1, fun hspelled => absurd hspelled hnot.2⟩
    · exact hcamel

/-! ## Styles under property names -/

/-- Whether a value is a style. -/
def AttrValue.isStyle : AttrValue → Bool
  | .text _ => false
  | .style _ => true

/-- Whether the attributes of an element that are named `style` are those whose value is a style. -/
def Token.NamesStyles : Token → Prop
  | .start _ attrs => ∀ e ∈ attrs, e.1 = "style" ↔ e.2.isStyle = true
  | .stop _ | .text _ => True

/-- Whether, among the attributes of an element that spell `style`, the last one is `style`. -/
def Token.EndsInStyle : Token → Prop
  | .start _ attrs => ∀ e ∈ attrs.reverse.find? fun e => SpellsStyle e.1, e.1 = "style"
  | .stop _ | .text _ => True

/-- An attribute stands for a style exactly if it is named `style`. -/
private theorem Attribute.eq_style_iff_isStyle {a : Attribute} {e : String × AttrValue}
    (h : a.entry? = some e) : e.1 = "style" ↔ e.2.isStyle = true := by
  rw [Attribute.entry?] at h
  split at h
  · obtain ⟨s, -, rfl⟩ := Option.map_eq_some_iff.1 h
    simp [AttrValue.isStyle]
  · rename_i hkey
    cases h
    simp [AttrValue.isStyle, hkey]

instance : (t : Token) → Decidable t.NamesStyles
  | .start _ attrs => inferInstanceAs (Decidable (∀ e ∈ attrs, e.1 = "style" ↔ e.2.isStyle = true))
  | .stop _ | .text _ => isTrue trivial

instance : (t : Token) → Decidable t.EndsInStyle
  | .start _ attrs =>
    inferInstanceAs (Decidable (∀ e ∈ attrs.reverse.find? fun e => SpellsStyle e.1, e.1 = "style"))
  | .stop _ | .text _ => isTrue trivial

/-- The reader makes a style of an attribute exactly if it is named `style`. -/
private theorem namesStyles_of_mem_tokens {x : String} {doc : Document}
    (h : Document.parse x = .ok doc) {t : Token} (ht : t ∈ doc.tokens) : t.NamesStyles := by
  cases t with
  | stop | text => trivial
  | start tag attrs =>
    intro e he
    obtain ⟨a, ha⟩ := exists_attribute_of_mem_tokens h ht he
    exact Attribute.eq_style_iff_isStyle ha

/-- Whatever names fall together, a style is passed as `style`. -/
private theorem eq_style_of_isStyle {attrs : List (String × AttrValue)}
    (h : ∀ e ∈ attrs, e.1 = "style" ↔ e.2.isStyle = true) {p : String × AttrValue}
    (hp : p ∈ propEntries attrs) (hstyle : p.2.isStyle = true) : p.1 = "style" := by
  obtain ⟨e, he, rfl⟩ := exists_of_mem_propEntries hp
  have hname : e.1 = "style" := (h e he).2 hstyle
  show propName e.1 = "style"
  rw [hname]
  decide

/-- Under property names, what is named `style` is a style exactly if the last attribute that spells
    it is `style`. -/
private theorem Token.NamesStyles.withPropNames_iff {t : Token} (h : t.NamesStyles) :
    t.withPropNames.NamesStyles ↔ t.EndsInStyle := by
  cases t with
  | stop | text => exact Iff.rfl
  | start tag attrs =>
    -- the attributes that are given the name `style` are those that spell it
    have hspells : (fun e : String × AttrValue => decide (propName e.1 = "style")) =
        fun e => decide (SpellsStyle e.1) :=
      funext fun e => decide_eq_decide.2 (propName_eq_style_iff e.1)
    -- the property comes from the last attribute that spells its name
    constructor
    · intro hnames e he
      have hfind : (attrs.reverse.find? fun e => propName e.1 = "style") = some e := by
        rw [hspells]
        exact he
      have hp : ("style", e.2) ∈ propEntries attrs := mem_propEntries_iff.2 ⟨e, hfind, rfl⟩
      have hmem : e ∈ attrs := List.mem_reverse.1 (List.mem_of_find?_eq_some hfind)
      exact (h e hmem).2 ((hnames _ hp).1 rfl)
    · intro hends p hp
      refine ⟨fun hname => ?_, eq_style_of_isStyle h hp⟩
      obtain ⟨e, he, hvalue⟩ := mem_propEntries_iff.1 hp
      have hmem : e ∈ attrs := List.mem_reverse.1 (List.mem_of_find?_eq_some he)
      rw [hname, hspells] at he
      rw [← hvalue]
      exact (h e hmem).1 (hends e he)

/-- At every depth of a document under property names, a style is passed as `style`. What is passed
    as `style` is a style at every depth exactly if in no element another attribute that spells
    `style` stands last among those that do. -/
theorem namesStyles_withPropNames_iff {x : String} {doc : Document}
    (h : Document.parse x = .ok doc) :
    (∀ tag props, .start tag props ∈ nodesTokens (nodesWithPropNames doc.content) →
      ∀ p ∈ props, p.2.isStyle = true → p.1 = "style") ∧
    ((∀ t ∈ nodesTokens (nodesWithPropNames doc.content), t.NamesStyles) ↔
      ∀ t ∈ nodesTokens doc.content, t.EndsInStyle) := by
  have hread : ∀ t ∈ nodesTokens doc.content, t.NamesStyles := fun t ht =>
    namesStyles_of_mem_tokens h (Document.mem_tokens_of_mem_content ht)
  -- renaming goes token by token
  rw [nodesTokens_withPropNames]
  refine ⟨?_, ?_⟩
  · intro tag props hmem p hp hstyle
    obtain ⟨t, ht, hrenamed⟩ := List.mem_map.1 hmem
    cases t with
    | stop | text => cases hrenamed
    | start tag' attrs =>
      obtain ⟨rfl, rfl⟩ := Token.start.inj hrenamed
      exact eq_style_of_isStyle (hread _ ht) hp hstyle
  · rw [List.forall_mem_map]
    exact forall₂_congr fun t ht => (hread t ht).withPropNames_iff

/-- A source with a style behind an attribute whose property name is `style`, too. -/
def twoStylesSource : String :=
  "<svg><g STYLE='x' style='fill:red'/></svg>"

/-- Where `style` itself stands last, its declarations are what is passed. -/
theorem namesStyles_twoStylesSource :
    ∃ doc, Document.parse twoStylesSource = .ok doc ∧
      nodesTokens (nodesWithPropNames doc.content) =
        [.start "g" [("style", .style (Style.read "fill:red"))], .stop "g"] ∧
      ∀ t ∈ nodesTokens (nodesWithPropNames doc.content), t.NamesStyles := by
  have hparse : (Document.parse twoStylesSource).toOption = some
      ⟨[.element "svg" .empty [.element "g" (.ofList [("STYLE", .text "x"),
        ("style", .style (Style.read "fill:red"))]) []]]⟩ := by
    decide +kernel
  have hdoc := ok_of_toOption hparse
  exact ⟨_, hdoc, by decide +kernel, (namesStyles_withPropNames_iff hdoc).2.2 (by decide +kernel)⟩

/-- Written in capitals, a style is passed as a text. -/
theorem not_namesStyles_of_capitals :
    ¬∀ (x : String) (doc : Document), Document.parse x = .ok doc →
      ∀ t ∈ nodesTokens (nodesWithPropNames doc.content), t.NamesStyles := by
  intro hall
  have hparse : (Document.parse "<g STYLE='fill:red'/>").toOption = some
      ⟨[.element "g" (.ofList [("STYLE", .text "fill:red")]) []]⟩ := by
    decide +kernel
  have hnames := hall _ _ (ok_of_toOption hparse)
  revert hnames
  decide +kernel

end IconCompiler.Markup
