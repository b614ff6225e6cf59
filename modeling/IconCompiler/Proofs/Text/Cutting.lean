/-!
# Texts cut out of others

A position in a text splits it in what stands in front of it and what follows; the text between two
positions is what the second has more in front. Texts joined by a separator are found again by
splitting at it, if none of them holds the character with which the separator starts: the search
then goes over each text as a whole and stops behind it.

## Key results

- `extract_of_splits`: the text between two positions
- `split_intercalate`: splitting undoes joining
-/

namespace IconCompiler.Text

open String.Slice String.Slice.Pattern

/-- The text between two positions. -/
theorem extract_of_splits {text : String} {start pos : text.Pos} {front piece back : String}
    (hstart : start.Splits front (piece ++ back)) (hpos : pos.Splits (front ++ piece) back) :
    text.extract start pos = piece := by
  obtain ⟨hle, hslice⟩ := String.copy_slice_eq_iff_splits.2 ⟨front, back, hstart, hpos⟩
  rw [String.extract_eq_copy_slice start pos hle, hslice]

/-- The part of a slice between two positions of it. -/
private theorem copy_subslice_of_splits {s : String.Slice} {start stop : s.Pos} (hle : start ≤ stop)
    {front piece back : String} (hstart : start.Splits front (piece ++ back))
    (hstop : stop.Splits (front ++ piece) back) : (s.subslice start stop hle).copy = piece := by
  obtain ⟨hle', hslice⟩ := copy_slice_eq_iff_splits.2 ⟨front, back, hstart, hstop⟩
  simpa using hslice

/-- A separator does not match at a character other than its first. -/
private theorem not_matchesAt {c d : Char} (hne : c ≠ d) (sep : String) {s : String.Slice}
    {pos : s.Pos} {front back : String} (hpos : pos.Splits front (String.singleton d ++ back)) :
    ¬Model.MatchesAt (String.singleton c ++ sep) pos := by
  rw [Model.ForwardStringSearcher.matchesAt_iff_splits]
  -- a match would put the first character of the separator here
  rintro ⟨front', back', hmatch⟩
  have hback := congrArg String.toList (hpos.eq_right hmatch)
  simp only [String.toList_append, String.toList_singleton, List.cons_append,
    List.nil_append] at hback
  exact hne (List.cons.inj hback).1.symm

section

-- A separator, its first character set apart.
variable {c : Char} (sep : String) [Model.StrictPatternModel (String.singleton c ++ sep)]

/-- The search for a separator goes over a text that lacks its first character. -/
private theorem exists_modelSplit_eq {s : String.Slice} {start pos : s.Pos} (hle : start ≤ pos)
    {front back : String} {piece : List Char} (hpiece : c ∉ piece)
    (hpos : pos.Splits front (String.ofList piece ++ back)) :
    ∃ (stop : s.Pos) (hstop : start ≤ stop), stop.Splits (front ++ String.ofList piece) back ∧
      Model.split (String.singleton c ++ sep) start pos hle =
        Model.split (String.singleton c ++ sep) start stop hstop := by
  -- the search moves on by one character at a time, while the start of the piece stays
  induction piece generalizing pos front with
  | nil => exact ⟨pos, hle, by simpa using hpos, rfl⟩
  | cons d piece ih =>
    rw [List.mem_cons, not_or] at hpiece
    rw [String.ofList_cons, String.append_assoc] at hpos
    have hend := hpos.ne_endPos_of_singleton
    have hle' : start ≤ pos.next hend := Std.le_trans hle (by simp)
    obtain ⟨stop, hstop, hsplits, heq⟩ := ih hle' hpiece.2 hpos.next
    rw [String.append_assoc, ← String.ofList_cons] at hsplits
    refine ⟨stop, hstop, hsplits, ?_⟩
    rw [Model.split_eq_next_of_not_matchesAt hend (not_matchesAt hpiece.1 sep hpos), heq]

/-- Texts that lack the first character of a separator are found again where it parts them. -/
private theorem map_copy_modelSplit {s : String.Slice} {pos : s.Pos} {front : String}
    {pieces : List String} (hne : pieces ≠ []) (h : ∀ piece ∈ pieces, c ∉ piece.toList)
    (hpos : pos.Splits front ((String.singleton c ++ sep).intercalate pieces)) :
    (Model.split (String.singleton c ++ sep) pos pos (Std.le_refl _)).map Subslice.copy =
      pieces := by
  -- over the texts, from the place where each of them starts
  induction pieces generalizing pos front with
  | nil => exact absurd rfl hne
  | cons piece pieces ih =>
    rw [List.forall_mem_cons] at h
    rw [← String.ofList_toList (s := piece)] at hpos
    by_cases hlast : pieces = []
    · -- the search goes to the end of the text
      subst hlast
      rw [String.intercalate_singleton, ← String.append_empty (s := String.ofList _)] at hpos
      obtain ⟨stop, hstop, hsplits, heq⟩ :=
        exists_modelSplit_eq sep (Std.le_refl _) h.1 hpos
      obtain rfl : stop = s.endPos := hsplits.eq_endPos_iff.2 rfl
      rw [String.ofList_toList] at hpos hsplits
      rw [heq, Model.split_endPos, List.map_singleton, copy_subslice_of_splits hstop hpos hsplits]
    · -- the search goes to the separator, and the others follow it
      rw [String.intercalate_cons_of_ne_nil hlast, String.append_assoc] at hpos
      obtain ⟨stop, hstop, hsplits, heq⟩ :=
        exists_modelSplit_eq sep (Std.le_refl _) h.1 hpos
      -- behind the text the whole separator stands, and it matches nowhere longer
      have hmatch : Model.IsLongestMatchAt (String.singleton c ++ sep) stop hsplits.rotateRight :=
        Model.ForwardStringSearcher.isLongestMatchAt_iff_splits.2
          ⟨_, _, hsplits, hsplits.splits_rotateRight⟩
      have hrest := ih hlast h.2 hsplits.splits_rotateRight
      rw [String.ofList_toList] at hpos hsplits
      rw [heq, Model.split_eq_of_isLongestMatchAt hmatch, List.map_cons, hrest,
        copy_subslice_of_splits hstop hpos hsplits]

end

/-- Splitting undoes joining, for texts that lack the first character of the separator. -/
theorem split_intercalate {c : Char} {sep : String} {pieces : List String} (hne : pieces ≠ [])
    (h : ∀ piece ∈ pieces, c ∉ piece.toList) :
    (((String.singleton c ++ sep).intercalate pieces).split
      (String.singleton c ++ sep)).toList.map String.Slice.copy = pieces := by
  have hsep : String.singleton c ++ sep ≠ "" := by simp
  have := Model.ForwardStringSearcher.strictPatternModel hsep
  have := Model.ForwardStringSearcher.lawfulToForwardSearcherModel hsep
  rw [String.split_eq_split_toSlice, toList_split_eq_splitToSubslice, List.map_map,
    toList_splitToSubslice_eq_modelSplit, ← Subslice.copy_eq]
  -- the search starts in front of everything
  have hpos : ((String.singleton c ++ sep).intercalate pieces).toSlice.startPos.Splits ""
      ((String.singleton c ++ sep).intercalate pieces) := by simp
  exact map_copy_modelSplit sep hne h hpos

end IconCompiler.Text
