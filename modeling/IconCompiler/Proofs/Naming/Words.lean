import IconCompiler.Component
import IconCompiler.Proofs.Naming
import IconCompiler.Proofs.Text.Cutting

/-!
# Words of component names

A component name is made word by word: hyphens count as spaces, white space parts words, and each
word is written with a capital at its front. The characters that part words have no case, so the
name holds none of them and stands on one line, and an index over many names has one line for each.

## Key results

- `componentChars_true`: a component name by its words
- `not_isSeparator_of_mem_componentChars`: a component name holds no character that parts words
- `componentName_words`: the rule for component names, and the lines of an index
-/

namespace IconCompiler.Naming

open Text

/-! ## Words -/

/-- The words of a text: hyphens count as spaces, and white space parts words. Between two parting
    characters in a row there is an empty word. -/
def words (cs : List Char) : List (List Char) :=
  (cs.map fun c => if c = '-' then ' ' else c).splitOnP isWhiteSpace

/-- A word with a capital at its front and the rest in lower case, each character on its own. -/
def capitalizeWord : List Char → List Char
  | [] => []
  | c :: cs => upperChar c ++ cs.flatMap lowerChar

/-- Hyphens and white space part words. -/
private theorem isSeparator_iff {c : Char} :
    isSeparator c = true ↔ c = '-' ∨ isWhiteSpace c = true := by
  rw [isSeparator, Bool.or_eq_true, decide_eq_true_eq]

/-- A parting character ends an empty word, and any other one goes to the first word. -/
theorem words_cons (c : Char) (cs : List Char) :
    words (c :: cs) =
      if isSeparator c then [] :: words cs else (words cs).modifyHead (c :: ·) := by
  rw [words, List.map_cons, List.splitOnP_cons_eq_if_modifyHead, ← words]
  by_cases hc : c = '-'
  · subst hc
    rfl
  · simp [isSeparator, hc]

theorem words_ne_nil (cs : List Char) : words cs ≠ [] :=
  List.splitOnP_ne_nil _ _

/-- The words on both sides of a parting character follow each other. -/
theorem words_append {c : Char} (hc : isSeparator c = true) (a b : List Char) :
    words (a ++ c :: b) = words a ++ words b := by
  -- over the text in front, which ends at the parting character
  induction a with
  | nil =>
    rw [List.nil_append, words_cons, if_pos hc]
    rfl
  | cons d a ih =>
    rw [List.cons_append, words_cons, words_cons, ih]
    split
    · rfl
    · obtain ⟨word, rest, hwords⟩ := List.exists_cons_of_ne_nil (words_ne_nil a)
      rw [hwords]
      rfl

/-- Without parting characters there is one word. -/
private theorem words_of_not_isSeparator {cs : List Char} (h : ∀ c ∈ cs, isSeparator c = false) :
    words cs = [cs] := by
  induction cs with
  | nil => rfl
  | cons c cs ih =>
    rw [List.forall_mem_cons] at h
    rw [words_cons, h.1, if_neg Bool.false_ne_true, ih h.2]
    rfl

/-- The flag of the loop says whether the first word is still to start. -/
private theorem componentChars_eq (fresh : Bool) (cs : List Char) :
    ∃ word rest, words cs = word :: rest ∧ componentChars fresh cs =
      (if fresh then capitalizeWord word else word.flatMap lowerChar) ++
        rest.flatMap capitalizeWord := by
  -- over the text, for both values of the flag
  induction cs generalizing fresh with
  | nil => exact ⟨[], [], rfl, by cases fresh <;> rfl⟩
  | cons c cs ih =>
    rw [words_cons, componentChars]
    split
    · -- the next character starts a word
      obtain ⟨word, rest, hwords, hchars⟩ := ih true
      refine ⟨[], word :: rest, by rw [hwords], ?_⟩
      rw [hchars]
      cases fresh <;> rfl
    · obtain ⟨word, rest, hwords, hchars⟩ := ih false
      refine ⟨c :: word, rest, by rw [hwords]; rfl, ?_⟩
      rw [hchars, ← List.append_assoc]
      cases fresh <;> rfl

/-- A component name is its words, each with a capital at its front. -/
theorem componentChars_true (cs : List Char) :
    componentChars true cs = (words cs).flatMap capitalizeWord := by
  obtain ⟨word, rest, hwords, hchars⟩ := componentChars_eq true cs
  rw [hwords, hchars, List.flatMap_cons]
  rfl

/-- The names on both sides of a parting character follow each other. -/
private theorem componentName_append {c : Char} (hc : isSeparator c = true) (a b : String) :
    componentName (a ++ String.singleton c ++ b) = componentName a ++ componentName b := by
  have htext : (a ++ String.singleton c ++ b).toList = a.toList ++ c :: b.toList := by
    simp
  rw [componentName, htext, componentChars_true, words_append hc, List.flatMap_append,
    ← componentChars_true, ← componentChars_true, String.ofList_append]
  rfl

/-! ## Parting characters -/

/-- The hyphen and the white space stand in the image of no other character. -/
private theorem isCaseless_of_isSeparator {d : Char} (hd : isSeparator d = true) :
    isCaseless d = true := by
  -- the hyphen is put before the table of white space, so that one look over a table does
  have htable : ∀ r ∈ (0x2D, 0x2D) :: whiteSpaceRanges, ∀ n ∈ List.range' r.1 (r.2 + 1 - r.1),
      isCaseless (Char.ofNat n) = true := by
    decide +kernel
  have hrange : ∃ r ∈ (0x2D, 0x2D) :: whiteSpaceRanges, r.1 ≤ d.toNat ∧ d.toNat ≤ r.2 := by
    rcases isSeparator_iff.1 hd with rfl | hwhite
    · exact ⟨(0x2D, 0x2D), List.mem_cons_self, by decide⟩
    · obtain ⟨r, hr, hin⟩ := RangeTable.contains_eq_true_iff.1 hwhite
      exact ⟨r, List.mem_cons_of_mem _ hr, hin⟩
  obtain ⟨r, hr, hfirst, hlast⟩ := hrange
  have hn : d.toNat ∈ List.range' r.1 (r.2 + 1 - r.1) := by
    rw [List.mem_range'_1]
    omega
  rw [← Char.ofNat_toNat d]
  exact htable r hr d.toNat hn

/-- A component name holds no character that parts words: such a character comes from itself
    alone, and there it was left out. -/
theorem not_isSeparator_of_mem_componentChars {fresh : Bool} {cs : List Char} {d : Char}
    (h : d ∈ componentChars fresh cs) : isSeparator d = false := by
  rw [← Bool.not_eq_true]
  intro hd
  have hcaseless := isCaseless_of_isSeparator hd
  induction cs generalizing fresh with
  | nil => cases h
  | cons c cs ih =>
    rw [componentChars] at h
    split at h
    · exact ih h
    · -- the character would come from itself, which is kept and so parts no words
      rename_i hc
      rcases List.mem_append.1 h with himage | hrest
      · have heq : d = c := by
          split at himage
          · exact eq_of_mem_upperChar hcaseless himage
          · exact eq_of_mem_lowerChar hcaseless himage
        exact hc (heq ▸ hd)
      · exact ih hrest

/-! ## Indexes -/

/-- The line for a component holds no carriage return. -/
private theorem not_mem_exportLine_componentName (name : String) :
    '\r' ∉ (Component.exportLine (componentName name)).toList := by
  have hline : Component.exportLine (componentName name) =
      "export * from './" ++ componentName name ++ "';" := rfl
  rw [hline, String.toList_append, String.toList_append, List.mem_append, List.mem_append]
  rintro ((hfront | hname) | hback)
  · exact absurd hfront (by decide)
  · rw [componentName, String.toList_ofList] at hname
    have hseparator : isSeparator '\r' = true := rfl
    rw [not_isSeparator_of_mem_componentChars hname] at hseparator
    cases hseparator
  · exact absurd hback (by decide)

/-- The lines of an index are those of its components. -/
private theorem split_packageIndex {names : List String} (hne : names ≠ []) :
    ((Component.packageIndex (names.map componentName)).split "\r\n").toList.map
        String.Slice.copy =
      names.map fun name => Component.exportLine (componentName name) := by
  -- no line holds the character with which the separator starts
  have hlines : ∀ line ∈ names.map fun name => Component.exportLine (componentName name),
      '\r' ∉ line.toList := by
    intro line hline
    obtain ⟨name, -, rfl⟩ := List.mem_map.1 hline
    exact not_mem_exportLine_componentName name
  have hsplit := @split_intercalate '\r' "\n" _ (mt List.map_eq_nil_iff.1 hne) hlines
  rw [Component.packageIndex, List.map_map]
  exact hsplit

/-! ## The rule for component names -/

/-- A character that parts no words is neither a hyphen nor white space. -/
private theorem isSeparator_eq_false_iff {c : Char} :
    isSeparator c = false ↔ c ≠ '-' ∧ isWhiteSpace c = false := by
  rw [← Bool.not_eq_true, isSeparator_iff, not_or, Bool.not_eq_true]

/-- A component name is made of the words of a text: the names of the texts on both sides of a
    hyphen or of white space follow each other, and a single word is written with a capital at its
    front. Neither hyphens nor white space are left, so the lines of an index over components are
    exactly those that export them. -/
theorem componentName_words :
    (∀ name, componentName name = String.ofList ((words name.toList).flatMap capitalizeWord)) ∧
      (∀ (a b : String) (c : Char), c = '-' ∨ isWhiteSpace c = true →
        componentName (a ++ String.singleton c ++ b) = componentName a ++ componentName b) ∧
      (∀ (c : Char) (cs : List Char), (∀ d ∈ c :: cs, d ≠ '-' ∧ isWhiteSpace d = false) →
        componentName (String.ofList (c :: cs)) =
          String.ofList (upperChar c ++ cs.flatMap lowerChar)) ∧
      (∀ name, ∀ d ∈ (componentName name).toList, d ≠ '-' ∧ isWhiteSpace d = false) ∧
      ∀ names : List String, names ≠ [] →
        ((Component.packageIndex (names.map componentName)).split "\r\n").toList.map
            String.Slice.copy =
          names.map fun name => Component.exportLine (componentName name) := by
  refine ⟨fun name => ?_, fun a b c hc => ?_, fun c cs h => ?_, fun name d hd => ?_, ?_⟩
  · rw [componentName, componentChars_true]
  · exact componentName_append (isSeparator_iff.2 hc) a b
  · -- without a parting character, the text is one word
    have hword : words (c :: cs) = [c :: cs] :=
      words_of_not_isSeparator fun d hd => isSeparator_eq_false_iff.2 (h d hd)
    rw [componentName, String.toList_ofList, componentChars_true, hword, List.flatMap_singleton]
    rfl
  · rw [componentName, String.toList_ofList] at hd
    exact isSeparator_eq_false_iff.1 (not_isSeparator_of_mem_componentChars hd)
  · exact fun names hne => split_packageIndex hne

/-- A line separator parts words as a hyphen does, and a ligature becomes two letters. -/
theorem componentName_words_ligature :
    isWhiteSpace '\u2028' = true ∧
      componentName ("ﬁn-TOP" ++ String.singleton '\u2028' ++ "--ΣΑΣ") =
        componentName "ﬁn-TOP" ++ componentName "--ΣΑΣ" ∧
      (∀ d ∈ "ﬁN".toList, d ≠ '-' ∧ isWhiteSpace d = false) ∧
      componentName "ﬁN" = "FIn" ∧
      ((Component.packageIndex (["ﬁN", "a\r\nb"].map componentName)).split "\r\n").toList.map
        String.Slice.copy = ["export * from './FIn';", "export * from './AB';"] := by
  obtain ⟨-, happend, hword, -, hindex⟩ := componentName_words
  have hwhite : isWhiteSpace '\u2028' = true := by decide
  have hall : ("ﬁN".toList.all fun d => !isSeparator d) = true := by decide +kernel
  have hone : ∀ d ∈ "ﬁN".toList, d ≠ '-' ∧ isWhiteSpace d = false := by
    intro d hd
    have hnot := List.all_eq_true.1 hall d hd
    rw [Bool.not_eq_true'] at hnot
    exact isSeparator_eq_false_iff.1 hnot
  refine ⟨hwhite, happend _ _ _ (.inr hwhite), hone, ?_, ?_⟩
  · have hname := hword 'ﬁ' ['N'] hone
    rw [show "ﬁN" = String.ofList ['ﬁ', 'N'] from rfl, hname]
    decide +kernel
  · rw [hindex _ (List.cons_ne_nil _ _)]
    decide +kernel

end IconCompiler.Naming
