import IconCompiler.Proofs.Path.Relative
import Mathlib.Data.List.TakeWhile

/-!
# Parents of paths

The parent of a path has all its words but the last one, and its text is a beginning of the path's.

## Key results

- `isParent_of_parent?`: what a parent has in common with its path
-/

namespace IconCompiler

namespace Path

/-- The parts of a path without the slashes at its end. -/
def trimmed (p : Path) : List FileName :=
  (p.segments.reverse.dropWhile (· = [])).reverse

/-- Parts that say nothing may go from the end without a loss of words. -/
private theorem words_dropWhile {segs : List FileName} {drop : FileName → Bool}
    (h : ∀ seg, drop seg = true → isVoid seg = true) :
    words (segs.reverse.dropWhile drop).reverse = words segs := by
  have hsplit : segs = (segs.reverse.dropWhile drop).reverse ++
      (segs.reverse.takeWhile drop).reverse := by
    rw [← List.reverse_append, List.takeWhile_append_dropWhile, List.reverse_reverse]
  -- what is dropped from the end holds no word
  have hvoid : words (segs.reverse.takeWhile drop).reverse = [] := by
    rw [words, List.filter_eq_nil_iff]
    intro seg hseg
    have hdrop := List.mem_takeWhile_imp (List.mem_reverse.1 hseg)
    simp [h seg hdrop]
  calc words (segs.reverse.dropWhile drop).reverse
      = words (segs.reverse.dropWhile drop).reverse ++
          words (segs.reverse.takeWhile drop).reverse := by rw [hvoid, List.append_nil]
    _ = words segs := by rw [← words_append, ← hsplit]

/-- A path keeps its words when the slashes at its end are taken off. -/
theorem words_trimmed (p : Path) : words p.trimmed = words p.segments :=
  words_dropWhile fun seg hseg => by
    rw [of_decide_eq_true hseg]
    rfl

/-- Words stay when the parts at the end that say nothing are taken off. -/
private theorem words_trimVoid (segs : List FileName) : words (trimVoid segs) = words segs :=
  words_dropWhile fun _ h => h

/-- Parts are only taken off the end. -/
private theorem trimVoid_isPrefix (segs : List FileName) : trimVoid segs <+: segs := by
  rw [trimVoid, ← List.reverse_suffix, List.reverse_reverse]
  exact List.dropWhile_suffix _

/-- What is left after the parts that say nothing are taken off ends in a word. -/
private theorem trimVoid_eq_nil_or (segs : List FileName) :
    trimVoid segs = [] ∨ ∃ init last, trimVoid segs = init ++ [last] ∧ isVoid last = false := by
  unfold trimVoid
  cases hrest : segs.reverse.dropWhile isVoid with
  | nil => exact .inl rfl
  | cons last rest =>
    refine .inr ⟨rest.reverse, last, by simp, ?_⟩
    -- dropping stops at the first part from the end that says something
    have hhead := List.head?_dropWhile_not isVoid segs.reverse
    rw [hrest] at hhead
    simpa using hhead

theorem words_concat {segs : List FileName} {last : FileName} (hv : isVoid last = false) :
    words (segs ++ [last]) = words segs ++ [last] := by
  rw [words_append]
  congr
  simp [words, hv]

/-- What a parent has in common with its path. -/
structure IsParent (q p : Path) : Prop where
  words : words q.segments = (words p.segments).dropLast
  isAbsolute : q.isAbsolute = p.isAbsolute
  units : q.units <+: p.units

/-- First parts of a path are a beginning of its text. -/
theorem intercalate_isPrefix {a b : List FileName} (h : a <+: b) :
    [slash].intercalate a <+: [slash].intercalate b := by
  induction b generalizing a with
  | nil =>
    obtain rfl := List.prefix_nil.1 h
    exact List.prefix_rfl
  | cons seg b ih =>
    cases a with
    | nil => exact List.nil_prefix
    | cons seg' a =>
      obtain ⟨rfl, hab⟩ := List.cons_prefix_cons.1 h
      -- whether a slash follows the first part depends on what comes behind it
      cases a with
      | nil =>
        cases b with
        | nil => exact List.prefix_rfl
        | cons b₁ b =>
          rw [List.intercalate_cons_cons]
          simp
      | cons a₁ a =>
        cases b with
        | nil => simp at hab
        | cons b₁ b =>
          rw [List.intercalate_cons_cons, List.intercalate_cons_cons, List.append_assoc,
            List.append_assoc]
          simpa using ih hab

/-- The parts before the last word, without those before it that say nothing. -/
private theorem words_trimVoid_dropLast {segs init : List FileName} {last : FileName}
    (h : trimVoid segs = init ++ [last]) (hv : isVoid last = false) :
    words (trimVoid init) = (words segs).dropLast := by
  -- neither trimming loses a word, so only the last part is missing
  rw [words_trimVoid, ← words_trimVoid segs, h, words_concat hv, List.dropLast_concat]

theorem words_cons (seg : FileName) (segs : List FileName) :
    words (seg :: segs) = words [seg] ++ words segs :=
  words_append [seg] segs

/-- A path whose text starts with an empty part, and has others, is absolute. -/
private theorem isAbsolute_ofSegments_iff {seg : FileName} {segs : List FileName}
    (h : slash ∉ seg) (hne : segs = [] → seg ≠ []) :
    (ofSegments (seg :: segs)).isAbsolute = true ↔ seg = [] := by
  constructor
  · intro habs
    by_contra hseg
    rw [isAbsolute_ofSegments hseg h] at habs
    cases habs
  · rintro rfl
    cases segs with
    | nil => exact absurd rfl (hne rfl)
    | cons seg' segs =>
      rw [ofSegments, List.intercalate_cons_cons]
      rfl

/-- What the parent of a path is: the text up to the last word behind the front, or no text if there
    is no such word. -/
private theorem parent?_eq_some {p q : Path} (h : p.parent? = some q) :
    ∃ front segs, p.segments = front :: segs ∧ (trimVoid segs = [] ∧ q = empty ∨
      ∃ init last, trimVoid segs = init ++ [last] ∧ isVoid last = false ∧
        q = if front = [] ∧ trimVoid init = [] then ⟨[slash]⟩
          else ofSegments (front :: trimVoid init)) := by
  -- the root and the empty path have no parent
  unfold parent? at h
  split at h
  · cases h
  · cases h
  · split at h
    · cases h
    · rename_i front segs hsegs
      refine ⟨front, segs, hsegs, ?_⟩
      obtain hnil | ⟨init, last, hinit, hlast⟩ := trimVoid_eq_nil_or segs
      · rw [hnil] at h
        exact .inl ⟨hnil, (Option.some.inj h).symm⟩
      · refine .inr ⟨init, last, hinit, hlast, ?_⟩
        split at h
        · rename_i hnil
          rw [hnil] at hinit
          simp at hinit
        · rw [hinit, List.dropLast_concat] at h
          split at h
          · -- an absolute path with one word has the root for its parent
            rename_i hroot
            rw [if_pos ⟨rfl, hroot⟩]
            exact (Option.some.inj h).symm
          · rename_i hroot
            rw [if_neg fun hc => hroot hc.1 hc.2]
            exact (Option.some.inj h).symm

/-- The parts of a parent: the front of the path, and what is before its last word. -/
private theorem exists_parts_of_parent? {p q : Path} (h : p.parent? = some q) (hq : q.units ≠ []) :
    ∃ front segs tail, p.segments = front :: segs ∧ q = ofSegments (front :: tail) ∧ segs ≠ [] ∧
      (tail = [] → front ≠ []) ∧ words tail = (words segs).dropLast ∧ words segs ≠ [] ∧
      (tail <+: segs ∨ front = [] ∧ tail = [[]]) := by
  obtain ⟨front, segs, hsegs, ⟨-, rfl⟩ | ⟨init, last, hinit, hlast, hparent⟩⟩ := parent?_eq_some h
  · exact absurd rfl hq
  · have hwords := words_trimVoid_dropLast hinit hlast
    have hnonempty : words segs ≠ [] := by
      rw [← words_trimVoid, hinit, words_concat hlast]
      simp
    have hne : segs ≠ [] := by
      rintro rfl
      exact hnonempty rfl
    -- the parent's parts were cut off twice, both times from the end
    have hpre : trimVoid init <+: segs := by
      have hsegs := trimVoid_isPrefix segs
      rw [hinit] at hsegs
      exact ((trimVoid_isPrefix init).trans (List.prefix_append _ _)).trans hsegs
    by_cases hroot : front = [] ∧ trimVoid init = []
    · -- the root directory, whose text has an empty part behind the front
      rw [hparent, if_pos hroot]
      obtain ⟨rfl, htail⟩ := hroot
      rw [htail] at hwords
      exact ⟨[], segs, [[]], hsegs, rfl, hne, by simp, hwords, hnonempty, .inr ⟨rfl, rfl⟩⟩
    · rw [hparent, if_neg hroot]
      exact ⟨front, segs, trimVoid init, hsegs, rfl, hne,
        fun htail hfront => hroot ⟨hfront, htail⟩, hwords, hnonempty, .inl hpre⟩

/-- A parent has the words of its path but the last, starts where the path starts and is a beginning
    of its text. -/
theorem isParent_of_parent? {p q : Path} (h : p.parent? = some q) (hq : q.units ≠ []) :
    q.IsParent p := by
  obtain ⟨front, segs, tail, hsegs, rfl, hne, htail, hwords, hnonempty, hparts⟩ :=
    exists_parts_of_parent? h hq
  have hp : p = ofSegments (front :: segs) := by rw [← hsegs, ofSegments_segments]
  -- parts of a path hold no slash, which is what joining them needs to be undone
  have hslash : ∀ seg ∈ front :: segs, slash ∉ seg := by
    rw [← hsegs]
    exact slash_not_mem_of_mem_splitUnits
  have hfront := hslash front List.mem_cons_self
  -- the parts of the parent are found again in its text, since none of them holds a slash
  have hq' : (ofSegments (front :: tail)).segments = front :: tail := by
    apply segments_ofSegments (List.cons_ne_nil _ _)
    rcases hparts with hpre | ⟨rfl, rfl⟩
    · exact fun seg hseg => hslash seg (((List.prefix_cons_inj front).2 hpre).subset hseg)
    · simp
  refine ⟨?_, ?_, ?_⟩
  · rw [hq', hsegs, words_cons, words_cons front segs, List.dropLast_append_of_ne_nil hnonempty,
      hwords]
  · rw [hp, Bool.eq_iff_iff, isAbsolute_ofSegments_iff hfront htail,
      isAbsolute_ofSegments_iff hfront fun h => absurd h hne]
  · rw [hp]
    rcases hparts with hpre | ⟨rfl, rfl⟩
    · exact intercalate_isPrefix ((List.prefix_cons_inj front).2 hpre)
    · -- the text of the root is a slash, and the path starts with one
      obtain ⟨seg, rest, rfl⟩ := List.exists_cons_of_ne_nil hne
      rw [ofSegments, ofSegments, List.intercalate_cons_cons, List.intercalate_cons_cons]
      simp [List.intercalate]

end Path

end IconCompiler
