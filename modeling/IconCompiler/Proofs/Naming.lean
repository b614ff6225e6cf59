import IconCompiler.Naming

/-!
# Characters of names

Case mapping moves code points by tables. A character that no table has as an image is the image of
nothing but itself; the slash is one, so a component name holds a slash only if the base name does.
Below 128 the tables are those of the letters from A to Z.

## Key results

- `mem_mapCase`: where a character of an image comes from
- `mem_of_mem_camelChars`, `mem_of_mem_componentChars`: characters of names without case
- `lowerAfter_of_isAscii`: texts in which only the letters from A to Z change
-/

namespace IconCompiler

/-- What a table gives for a key is one of its entries. -/
theorem mem_of_lookup_eq_some {κ α : Type} [BEq κ] [LawfulBEq κ] {table : List (κ × α)} {k : κ}
    {a : α} (h : table.lookup k = some a) : (k, a) ∈ table := by
  obtain ⟨front, back, rfl, -⟩ := List.lookup_eq_some_iff.1 h
  exact List.mem_append_right front List.mem_cons_self

namespace Text

/-- A character other than the null character has the code point that it is made of. -/
private theorem toNat_of_ofNat_eq {n : Nat} {d : Char} (h : Char.ofNat n = d) (hd : d ≠ '\x00') :
    d.toNat = n := by
  by_cases hv : n.isValidChar
  · have haux : Char.ofNat n = Char.ofNatAux n hv := dif_pos hv
    rw [← h, haux]
    rfl
  · -- a number that is no code point gives the null character
    have hzero : Char.ofNat n = '\x00' := dif_neg hv
    exact absurd (h.symm.trans hzero) hd

/-- A character of an image comes from an expansion, or it was moved by a run, or it is the
    character itself. -/
theorem mem_mapCase {expansions : List (Nat × List Nat)} {runs : List CaseRun} {c d : Char}
    (hd : d ≠ '\x00') (h : d ∈ mapCase expansions runs c) :
    (∃ e ∈ expansions, ∃ n ∈ e.2, Char.ofNat n = d) ∨
      (∃ r ∈ runs, r.contains c.toNat ∧ (d.toNat - r.shift).toNat = c.toNat) ∨ d = c := by
  -- expansions are looked up first, then the runs
  unfold mapCase at h
  split at h
  · rename_i image hlookup
    obtain ⟨n, hn, hnd⟩ := List.mem_map.1 h
    exact .inl ⟨(c.toNat, image), mem_of_lookup_eq_some hlookup, n, hn, hnd⟩
  · split at h
    · rename_i r hr
      have hmoved := toNat_of_ofNat_eq (List.mem_singleton.1 h).symm hd
      have hpos : d.toNat ≠ 0 := fun hzero => hd (by rw [← Char.ofNat_toNat d, hzero])
      -- the distance of the run leads back to the character that was moved
      have hback : (d.toNat - r.shift).toNat = c.toNat := by
        omega
      have hin := List.find?_some hr
      exact .inr (.inl ⟨r, List.mem_of_find?_eq_some hr, hin, hback⟩)
    · exact .inr (.inr (List.mem_singleton.1 h))

/-- An image has at least one character. -/
private theorem mapCase_ne_nil {expansions : List (Nat × List Nat)} (runs : List CaseRun) (c : Char)
    (h : ∀ e ∈ expansions, e.2 ≠ []) : mapCase expansions runs c ≠ [] := by
  -- an expansion has an image by its table, and anything else is one character
  unfold mapCase
  split
  · rename_i image hlookup
    have himage := h (c.toNat, image) (mem_of_lookup_eq_some hlookup)
    simpa using himage
  · split <;> exact List.cons_ne_nil _ _

theorem upperChar_ne_nil (c : Char) : upperChar c ≠ [] :=
  mapCase_ne_nil _ c (by decide)

theorem lowerChar_ne_nil (c : Char) : lowerChar c ≠ [] :=
  mapCase_ne_nil _ c (by decide)

/-- Whether a character stands in the image of no other. Both small sigmas are left out, which the
    capital one becomes in a text. -/
def isCaseless (d : Char) : Bool :=
  d ≠ '\x00' && d ≠ 'σ' && d ≠ 'ς' &&
    (upperExpansions ++ lowerExpansions).all (fun e => e.2.all fun n => Char.ofNat n ≠ d) &&
      (upperRuns ++ lowerRuns).all fun r => !r.contains (d.toNat - r.shift).toNat

set_option maxRecDepth 4000 in
/-- The slash is in the image of no other character. -/
private theorem isCaseless_slash : isCaseless '/' = true := by
  decide

section

variable {d : Char} (hd : isCaseless d = true)

include hd

/-- By the tables for either case, a character without case comes only from itself. -/
private theorem eq_of_mem_mapCase {expansions : List (Nat × List Nat)} {runs : List CaseRun}
    {c : Char} (hexpansions : expansions ⊆ upperExpansions ++ lowerExpansions)
    (hruns : runs ⊆ upperRuns ++ lowerRuns) (h : d ∈ mapCase expansions runs c) : d = c := by
  simp only [isCaseless, Bool.and_eq_true, decide_eq_true_eq, List.all_eq_true,
    Bool.not_eq_true'] at hd
  obtain ⟨⟨⟨⟨hzero, -⟩, -⟩, hnone⟩, hunmoved⟩ := hd
  -- the tables have no such image, so the character is the one that was mapped
  rcases mem_mapCase hzero h with ⟨e, he, n, hn, hnd⟩ | ⟨r, hr, hc, hback⟩ | hdc
  · exact absurd hnd (hnone e (hexpansions he) n hn)
  · have hnot := hunmoved r (hruns hr)
    rw [hback, hc] at hnot
    cases hnot
  · exact hdc

/-- In capitals, a character without case comes only from itself. -/
theorem eq_of_mem_upperChar {c : Char} (h : d ∈ upperChar c) : d = c :=
  eq_of_mem_mapCase hd (List.subset_append_left _ _) (List.subset_append_left _ _) h

theorem eq_of_mem_lowerChar {c : Char} (h : d ∈ lowerChar c) : d = c :=
  eq_of_mem_mapCase hd (List.subset_append_right _ _) (List.subset_append_right _ _) h

/-- A text in small letters holds a character without case only if the text does. -/
private theorem mem_of_mem_lowerAfter {before cs : List Char} (h : d ∈ lowerAfter before cs) :
    d ∈ cs := by
  induction cs generalizing before with
  | nil => cases h
  | cons c cs ih =>
    rw [lowerAfter] at h
    rcases List.mem_append.1 h with himage | hrest
    · have heq : d = c := by
        split at himage
        · -- a capital sigma becomes one of two small ones, which are not without case
          split at himage
          all_goals
            rw [List.mem_singleton.1 himage] at hd
            simp [isCaseless] at hd
        · exact eq_of_mem_lowerChar hd himage
      exact heq ▸ List.mem_cons_self
    · exact List.mem_cons_of_mem _ (ih hrest)

end

set_option maxRecDepth 4000 in
/-- The letters from A to Z are the first run; the others lie behind the first 128 characters. -/
private theorem find?_lowerRuns_of_isAscii {n : Nat} (h : n < 128) :
    lowerRuns.find? (fun r => r.contains n) =
      if 65 ≤ n ∧ n ≤ 90 then some ⟨65, 90, 1, 32⟩ else none := by
  have hruns : lowerRuns = ⟨65, 90, 1, 32⟩ :: lowerRuns.tail := rfl
  -- one look over the table does, in place of one for each code point
  have hbehind : (lowerRuns.tail.all fun r => 128 ≤ r.first) = true := by decide
  have hnone : lowerRuns.tail.find? (fun r => r.contains n) = none := by
    rw [List.find?_eq_none]
    intro r hr hin
    have hfirst : 128 ≤ r.first := of_decide_eq_true (List.all_eq_true.1 hbehind r hr)
    simp only [CaseRun.contains, Bool.and_eq_true, decide_eq_true_eq] at hin
    omega
  rw [hruns, List.find?_cons, hnone]
  by_cases hletter : 65 ≤ n ∧ n ≤ 90
  · rw [if_pos hletter]
    simp [CaseRun.contains, hletter, Nat.mod_one]
  · rw [if_neg hletter]
    have hout : (65 ≤ n && n ≤ 90) = false := by simpa using hletter
    simp [CaseRun.contains, hout]

/-- Below 128, the letters from A to Z are lower-cased and nothing else. -/
private theorem lowerChar_of_isAscii {c : Char} (h : c.toNat < 128) :
    lowerChar c = [c.toLower] := by
  -- the one expansion is that of a letter behind the first 128
  have hexpansions : lowerExpansions.lookup c.toNat = none := by
    have hne : (c.toNat == 0x0130) = false := by
      rw [beq_eq_false_iff_ne]
      omega
    rw [lowerExpansions, List.lookup_cons, hne]
    rfl
  -- below 128 both are finite tables
  have htoLower : ∀ n < 128, (Char.ofNat n).toLower =
      if 65 ≤ n ∧ n ≤ 90 then Char.ofNat (n + 32) else Char.ofNat n := by
    decide
  have hc := htoLower c.toNat h
  rw [Char.ofNat_toNat] at hc
  rw [lowerChar, mapCase, hexpansions, find?_lowerRuns_of_isAscii h, hc]
  by_cases hletter : 65 ≤ c.toNat ∧ c.toNat ≤ 90
  · rw [if_pos hletter, if_pos hletter]
    rfl
  · rw [if_neg hletter, if_neg hletter]

/-- Below 128, a text is put into small letters character by character. -/
theorem lowerAfter_of_isAscii {before cs : List Char} (h : ∀ c ∈ cs, c.toNat < 128) :
    lowerAfter before cs = cs.map Char.toLower := by
  induction cs generalizing before with
  | nil => rfl
  | cons c cs ih =>
    rw [List.forall_mem_cons] at h
    have hsigma : c ≠ 'Σ' := by
      rintro rfl
      exact absurd h.1 (by decide)
    rw [lowerAfter, if_neg hsigma, lowerChar_of_isAscii h.1, ih h.2]
    rfl

end Text

namespace Naming

open Text

/-- A text has a segment at least, if only an empty one. -/
theorem segments_ne_nil (cs : List Char) : segments cs ≠ [] := by
  cases cs with
  | nil => exact List.cons_ne_nil _ _
  | cons c cs =>
    rw [segments]
    split
    · exact List.cons_ne_nil _ _
    · split <;> exact List.cons_ne_nil _ _

/-- A text without hyphens is one segment, and every hyphen behind it adds an empty one. -/
theorem segments_append_replicate {s : List Char} (hs : '-' ∉ s) (k : Nat) :
    segments (s ++ List.replicate k '-') = s :: List.replicate k [] := by
  -- up to the first hyphen, and then hyphen by hyphen
  induction s with
  | nil =>
    induction k with
    | zero => rfl
    | succ k ih =>
      rw [List.nil_append] at ih
      rw [List.nil_append, List.replicate_succ, segments, if_pos rfl, ih]
      rfl
  | cons c s ih =>
    rw [List.mem_cons, not_or] at hs
    rw [List.cons_append, segments, if_neg (Ne.symm hs.1), ih hs.2]

/-- Behind a first segment with empty ones behind it there are only hyphens. -/
theorem eq_append_replicate_of_segments {cs s : List Char} {rest : List (List Char)}
    (h : segments cs = s :: rest) (hrest : ∀ t ∈ rest, t = []) :
    cs = s ++ List.replicate rest.length '-' := by
  -- over the text: a hyphen gives an empty segment, another character goes to the first
  induction cs generalizing s rest with
  | nil =>
    obtain ⟨rfl, rfl⟩ := List.cons.inj h
    rfl
  | cons c cs ih =>
    obtain ⟨t, ts, hsegments⟩ := List.exists_cons_of_ne_nil (segments_ne_nil cs)
    rw [segments] at h
    split at h
    · rename_i hc
      obtain ⟨rfl, rfl⟩ := List.cons.inj h
      rw [hsegments, List.forall_mem_cons] at hrest
      have hcs := ih hsegments hrest.2
      rw [hc, hsegments, hcs, hrest.1]
      rfl
    · rw [hsegments] at h
      obtain ⟨rfl, rfl⟩ := List.cons.inj h
      rw [ih hsegments hrest, List.cons_append]

/-- The characters of a segment are characters of the text. -/
theorem mem_of_mem_segments {d : Char} {s cs : List Char} (hs : s ∈ segments cs) (h : d ∈ s) :
    d ∈ cs := by
  induction cs generalizing s with
  | nil =>
    rw [List.mem_singleton.1 hs] at h
    cases h
  | cons c cs ih =>
    rw [segments] at hs
    split at hs
    · rcases List.mem_cons.1 hs with rfl | hs
      · cases h
      · exact List.mem_cons_of_mem _ (ih hs h)
    · split at hs
      · rw [List.mem_singleton.1 hs, List.mem_singleton] at h
        exact h ▸ List.mem_cons_self
      · -- the character goes to the first segment of the rest
        rename_i t ts hts
        rw [hts] at ih
        rcases List.mem_cons.1 hs with rfl | hs
        · rcases List.mem_cons.1 h with rfl | h
          · exact List.mem_cons_self
          · exact List.mem_cons_of_mem _ (ih List.mem_cons_self h)
        · exact List.mem_cons_of_mem _ (ih (List.mem_cons_of_mem _ hs) h)

section

variable {d : Char} (hd : isCaseless d = true)

include hd

/-- A component name holds a character without case only if the base name does. -/
theorem mem_of_mem_componentChars {fresh : Bool} {cs : List Char}
    (h : d ∈ componentChars fresh cs) : d ∈ cs := by
  induction cs generalizing fresh with
  | nil => cases h
  | cons c cs ih =>
    rw [componentChars] at h
    split at h
    · -- a parting character is left out
      exact List.mem_cons_of_mem _ (ih h)
    · rcases List.mem_append.1 h with hc | hcs
      · have heq : d = c := by
          split at hc
          · exact eq_of_mem_upperChar hd hc
          · exact eq_of_mem_lowerChar hd hc
        exact heq ▸ List.mem_cons_self
      · exact List.mem_cons_of_mem _ (ih hcs)

/-- A capitalised segment holds a character without case only if the segment does. -/
private theorem mem_of_mem_capitalize {s : List Char} (h : d ∈ capitalize s) : d ∈ s := by
  cases s with
  | nil => cases h
  | cons c cs =>
    rw [capitalize] at h
    rcases List.mem_append.1 h with hc | hcs
    · exact eq_of_mem_upperChar hd hc ▸ List.mem_cons_self
    · exact List.mem_cons_of_mem _ (mem_of_mem_lowerAfter hd hcs)

/-- A camel-case name holds a character without case only if the hyphenated one does. -/
theorem mem_of_mem_camelChars {cs : List Char} (h : d ∈ camelChars cs) : d ∈ cs := by
  unfold camelChars at h
  split at h
  · cases h
  · rename_i s rest hsegments
    rcases List.mem_append.1 h with hs | hrest
    · have hmem : s ∈ segments cs := by rw [hsegments]; exact List.mem_cons_self
      exact mem_of_mem_segments hmem (mem_of_mem_lowerAfter hd hs)
    · obtain ⟨t, ht, hdt⟩ := List.mem_flatMap.1 hrest
      have hmem : t ∈ segments cs := by rw [hsegments]; exact List.mem_cons_of_mem _ ht
      exact mem_of_mem_segments hmem (mem_of_mem_capitalize hd hdt)

end

theorem slash_mem_of_mem_componentChars {fresh : Bool} {cs : List Char}
    (h : '/' ∈ componentChars fresh cs) : '/' ∈ cs :=
  mem_of_mem_componentChars isCaseless_slash h

end Naming

end IconCompiler
