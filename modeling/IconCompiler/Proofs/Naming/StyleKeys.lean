import IconCompiler.Proofs.Naming.Words

/-!
# Style keys in camel case

A vendor mark sends a style property through the rule for component names, every other property
through camel case. The one goes over characters with a flag, the other over segments and puts them
into lower case as texts. They part words at the same places if there is no white space, and lower
the same way if there is no capital sigma, whose lower-case form depends on what stands around it.

## Key results

- `words_eq_segments`: the words of a text without white space
- `lowerAfter_of_not_mem_sigma`: lower case character by character
- `stylePropertyName_eq_camelCase`: the key of a property by either rule
-/

namespace IconCompiler.Text

/-- Without a capital sigma, a text is put into lower case character by character. -/
theorem lowerAfter_of_not_mem_sigma {before cs : List Char} (h : 'Σ' ∉ cs) :
    lowerAfter before cs = cs.flatMap lowerChar := by
  -- only the form of a capital sigma depends on the text in front
  induction cs generalizing before with
  | nil => rfl
  | cons c cs ih =>
    rw [List.mem_cons, not_or] at h
    rw [lowerAfter, if_neg (Ne.symm h.1), ih h.2, List.flatMap_cons]

/-- Without white space there is nothing to trim. -/
private theorem trim_of_not_isWhiteSpace {cs : List Char} (h : ∀ c ∈ cs, isWhiteSpace c = false) :
    trim cs = cs := by
  have hdrop : ∀ ds : List Char, (∀ c ∈ ds, isWhiteSpace c = false) →
      ds.dropWhile isWhiteSpace = ds := by
    intro ds hds
    cases ds with
    | nil => rfl
    | cons c ds => rw [List.dropWhile_cons, hds c List.mem_cons_self, if_neg Bool.false_ne_true]
  rw [trim, trimEnd, hdrop cs h, hdrop cs.reverse fun c hc => h c (List.mem_reverse.1 hc),
    List.reverse_reverse]

end IconCompiler.Text

namespace IconCompiler.Naming

open Text

/-- Without white space, the words of a text are its parts between hyphens. -/
theorem words_eq_segments {cs : List Char} (h : ∀ c ∈ cs, isWhiteSpace c = false) :
    words cs = segments cs := by
  induction cs with
  | nil => rfl
  | cons c cs ih =>
    rw [List.forall_mem_cons] at h
    rw [words_cons, segments, isSeparator, h.1, Bool.or_false, ih h.2]
    -- a hyphen ends a word as it ends a segment
    by_cases hc : c = '-'
    · rw [if_pos hc, if_pos (decide_eq_true hc)]
    · obtain ⟨s, rest, hsegments⟩ := List.exists_cons_of_ne_nil (segments_ne_nil cs)
      simp [hc, hsegments]

/-- Without a capital sigma, a segment is capitalised as a word is. -/
private theorem capitalize_of_not_mem_sigma {s : List Char} (h : 'Σ' ∉ s) :
    capitalize s = capitalizeWord s := by
  cases s with
  | nil => rfl
  | cons c s =>
    rw [capitalize, lower, lowerAfter_of_not_mem_sigma fun hs => h (List.mem_cons_of_mem c hs)]
    rfl

/-- The rule for component names is camel case behind a hyphen, where the first segment is empty
    and all others get a capital. -/
private theorem componentChars_true_eq_camelChars {cs : List Char}
    (hwhite : ∀ c ∈ cs, isWhiteSpace c = false) (hsigma : 'Σ' ∉ cs) :
    componentChars true cs = camelChars ('-' :: cs) := by
  -- the hyphen in front leaves an empty first segment, which gives nothing
  have hcamel : camelChars ('-' :: cs) = (segments cs).flatMap capitalize := by
    rw [camelChars, segments, if_pos rfl]
    rfl
  have hcapitalize : ∀ s ∈ segments cs, capitalizeWord s = capitalize s := by
    intro s hs
    exact (capitalize_of_not_mem_sigma fun hmem => hsigma (mem_of_mem_segments hs hmem)).symm
  rw [hcamel, componentChars_true, words_eq_segments hwhite, List.flatMap_def, List.flatMap_def,
    List.map_congr_left hcapitalize]

/-- The characters of a style key are in camel case, by either rule. -/
private theorem stylePropertyChars_eq_camelChars {cs : List Char}
    (hwhite : ∀ c ∈ cs, isWhiteSpace c = false) (hsigma : 'Σ' ∉ cs)
    (hcustom : ¬['-', '-'] <+: cs) (hms : ¬['-', 'm', 's', '-'] <+: cs) :
    stylePropertyChars cs = camelChars cs := by
  -- a custom property is excluded, a vendor mark is dropped
  unfold stylePropertyChars
  split
  · exact absurd ⟨_, rfl⟩ hcustom
  · split
    · -- a hyphen in front is a vendor mark, and of these only `-ms-` is left out
      rename_i hmark
      exact absurd (List.cons_prefix_cons.2 ⟨rfl, List.isPrefixOf_iff_prefix.1 hmark⟩) hms
    · rw [List.forall_mem_cons] at hwhite
      rw [List.mem_cons, not_or] at hsigma
      exact componentChars_true_eq_camelChars hwhite.2 hsigma.2
  · rfl

/-- The key of a style property is its name in camel case, for names without white space and
    without a capital sigma that start neither a custom property nor the vendor mark `-ms-`. -/
theorem stylePropertyName_eq_camelCase {name : String}
    (hwhite : ∀ c ∈ name.toList, isWhiteSpace c = false) (hsigma : 'Σ' ∉ name.toList)
    (hcustom : ¬"--".toList <+: name.toList) (hms : ¬"-ms-".toList <+: name.toList) :
    stylePropertyName name = camelCase name := by
  rw [stylePropertyName, trim_of_not_isWhiteSpace hwhite,
    stylePropertyChars_eq_camelChars hwhite hsigma hcustom hms, camelCase]

/-- Empty segments are left out, and ligatures become two letters. -/
theorem stylePropertyName_eq_camelCase_webkit :
    (∀ c ∈ "-webKit--ßeta-ﬁLL-".toList, isWhiteSpace c = false) ∧
      'Σ' ∉ "-webKit--ßeta-ﬁLL-".toList ∧ ¬"--".toList <+: "-webKit--ßeta-ﬁLL-".toList ∧
      ¬"-ms-".toList <+: "-webKit--ßeta-ﬁLL-".toList ∧
      stylePropertyName "-webKit--ßeta-ﬁLL-" = camelCase "-webKit--ßeta-ﬁLL-" ∧
      camelCase "-webKit--ßeta-ﬁLL-" = "WebkitSSetaFIll" := by
  have hall : ("-webKit--ßeta-ﬁLL-".toList.all fun c => !isWhiteSpace c) = true := by
    decide +kernel
  have hwhite : ∀ c ∈ "-webKit--ßeta-ﬁLL-".toList, isWhiteSpace c = false := by
    intro c hc
    have hnot := List.all_eq_true.1 hall c hc
    rwa [Bool.not_eq_true'] at hnot
  have hsigma : 'Σ' ∉ "-webKit--ßeta-ﬁLL-".toList := by decide +kernel
  have hcustom : ¬"--".toList <+: "-webKit--ßeta-ﬁLL-".toList := by decide +kernel
  have hms : ¬"-ms-".toList <+: "-webKit--ßeta-ﬁLL-".toList := by decide +kernel
  exact ⟨hwhite, hsigma, hcustom, hms, stylePropertyName_eq_camelCase hwhite hsigma hcustom hms,
    by decide +kernel⟩

/-- A capital sigma at the end of a word is a final one in camel case only. -/
example : stylePropertyName "-oΑΣ" = "Oασ" ∧ camelCase "-oΑΣ" = "Oας" := by
  decide +kernel

end IconCompiler.Naming
