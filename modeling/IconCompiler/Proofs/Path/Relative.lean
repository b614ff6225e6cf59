import IconCompiler.Asset
import IconCompiler.Proofs.Path.Segments

/-!
# Paths relative to a directory

What `relativeText` gives of a path, once more joined to the directory: the parts of the joined
path, in each of the ways in which the two paths can lie to each other.

## Key results

- `IsBelow.rejoin_hasWordsOf`: a path below the directory gets its own words back
- `IsBelow.segments_rejoin_of_eq_nil`: the directory itself gets an empty part at its end
- `rejoin_hasWordsOf_join`: any other relative path is put below the directory a second time
- `rejoin_hasWordsOf_self`: any other absolute path stays
-/

namespace IconCompiler

namespace FileName

/-- Whether a name holds nothing but text. -/
def IsText (n : FileName) : Prop :=
  ∃ cs, n = ofChars cs

theorem IsText.nil : IsText [] := ⟨[], rfl⟩

/-- Two texts after each other are a text. -/
theorem IsText.append {a b : FileName} (ha : IsText a) (hb : IsText b) : IsText (a ++ b) := by
  obtain ⟨cs, rfl⟩ := ha
  obtain ⟨ds, rfl⟩ := hb
  exact ⟨cs ++ ds, by simp [ofChars]⟩

/-- A name made of characters reads as those characters. -/
theorem text?_ofChars (cs : List Char) : text? (ofChars cs) = some cs := by
  induction cs with
  | nil => rfl
  | cons c cs ih =>
    show (text? (ofChars cs)).map (c :: ·) = _
    rw [ih]
    rfl

/-- A name that reads as characters is made of them. -/
theorem eq_ofChars_of_text? {n : FileName} {cs : List Char} (h : n.text? = some cs) :
    n = ofChars cs := by
  induction n generalizing cs with
  | nil =>
    cases h
    rfl
  | cons u n ih =>
    cases u with
    | stray bytes => cases h
    | char c =>
      obtain ⟨ds, hds, rfl⟩ := Option.map_eq_some_iff.1 h
      rw [ih hds]
      rfl

/-- Characters without a slash make a name without one. -/
theorem slash_not_mem_ofChars {cs : List Char} (h : '/' ∉ cs) : Path.slash ∉ ofChars cs := by
  intro hmem
  obtain ⟨c, hc, heq⟩ := List.mem_map.1 hmem
  rw [Path.slash, PathUnit.char.injEq] at heq
  exact h (heq ▸ hc)

/-- Characters are shown as they are. -/
theorem display_ofChars (cs : List Char) : display (ofChars cs) = cs := by
  induction cs with
  | nil => rfl
  | cons c cs ih => exact congrArg (c :: ·) ih

/-- A text is shown as it is. -/
theorem IsText.ofChars_display {n : FileName} (h : IsText n) : ofChars (display n) = n := by
  obtain ⟨cs, rfl⟩ := h
  rw [display_ofChars]

/-- Texts with slashes between them are a text. -/
theorem IsText.intercalate {segs : List FileName} (h : ∀ seg ∈ segs, IsText seg) :
    IsText ([Path.slash].intercalate segs) := by
  induction segs with
  | nil => exact .nil
  | cons seg segs ih =>
    have hseg := h seg List.mem_cons_self
    have hrest := ih fun s hs => h s (List.mem_cons_of_mem _ hs)
    -- whether a slash follows depends on whether another text does
    cases segs with
    | nil => simpa [List.intercalate] using hseg
    | cons seg' segs =>
      rw [List.intercalate_cons_cons]
      exact (hseg.append ⟨['/'], rfl⟩).append hrest

/-- Texts are joined with slashes before they are made a name, or after. -/
private theorem ofChars_intercalate (texts : List (List Char)) :
    ofChars (['/'].intercalate texts) = [Path.slash].intercalate (texts.map ofChars) := by
  induction texts with
  | nil => rfl
  | cons t texts ih =>
    cases texts with
    | nil => simp [List.intercalate]
    | cons t' texts =>
      rw [List.intercalate_cons_cons, List.map_cons, List.map_cons, List.intercalate_cons_cons,
        ← List.map_cons, ← ih]
      simp [ofChars, Path.slash]

end FileName

open FileName

namespace Path

/-! ## What a path is relative to a directory -/

/-- The parts of a path relative to a directory. -/
def relativeParts (p root : Path) : List FileName :=
  ((p.relativeComponents root).filter (· ≠ .current)).map componentUnits

/-- Components of a path with words that are texts are texts. -/
private theorem isText_of_mem_components {p : Path} (h : ∀ seg ∈ words p.segments, IsText seg) :
    ∀ c ∈ p.components, IsText (componentUnits c) := by
  intro c hc
  rw [components_eq, List.mem_append] at hc
  rcases hc with hc | hc
  · rw [Option.mem_toList, leading?] at hc
    split at hc
    · obtain rfl := (Option.some.inj hc).symm
      exact ⟨['/'], rfl⟩
    · split at hc
      · obtain rfl := (Option.some.inj hc).symm
        exact ⟨['.'], rfl⟩
      · cases hc
  · apply h _
    rw [← map_componentUnits_innerComponents]
    exact List.mem_map_of_mem hc

/-- What a path is relative to a directory is made of components of the path. -/
private theorem relativeComponents_subset (p root : Path) :
    p.relativeComponents root ⊆ p.components := by
  rw [relativeComponents]
  split
  · exact List.drop_subset _ _
  · exact List.Subset.refl _

/-- The text of a path relative to a directory has the relative parts. -/
private theorem ofString_relativeText {p : Path} (h : ∀ seg ∈ words p.segments, IsText seg)
    (root : Path) :
    ofString (p.relativeText root) = ofSegments (p.relativeParts root) := by
  -- each component is shown as it is, since it is a text
  have hparts : ((p.relativeComponents root).filter (· ≠ .current)).map
      (fun c => ofChars (FileName.display (componentUnits c))) = p.relativeParts root := by
    apply List.map_congr_left
    intro c hc
    have hmem := relativeComponents_subset p root (List.mem_filter.1 hc).1
    exact (isText_of_mem_components h c hmem).ofChars_display
  -- showing a text and reading it again changes nothing
  rw [ofString, relativeText, String.toList_ofList, ofSegments, ← hparts]
  show Path.mk (ofChars _) = _
  rw [ofChars_intercalate, List.map_map]
  rfl

/-- Components inside a path are never a dot. -/
private theorem filter_ne_current {p : Path} {cs : List PathComponent}
    (h : cs ⊆ p.innerComponents) :
    cs.filter (· ≠ .current) = cs := by
  rw [List.filter_eq_self]
  intro c hc
  exact decide_eq_true (ne_of_mem_innerComponents (h hc)).1

/-- The components of a path without a dot at its front. -/
private theorem filter_components (p : Path) : p.components.filter (· ≠ .current) =
    (if p.isAbsolute then [PathComponent.root] else []) ++ p.innerComponents := by
  have hinner : p.innerComponents.filter (· ≠ .current) = p.innerComponents :=
    filter_ne_current (List.Subset.refl _)
  rw [components_eq, List.filter_append, hinner, leading?]
  split
  · rfl
  · split <;> rfl

/-- Whether a path lies below a directory, or is that directory. A directory without a component
    has nothing below it. -/
def IsBelow (p root : Path) : Prop :=
  root.components ≠ [] ∧ root.components <+: p.components

/-- What stands at the front of a path is no component inside one. -/
private theorem leading?_ne_of_mem {p q : Path} {c : PathComponent} (h : c ∈ q.innerComponents) :
    p.leading? ≠ some c := by
  obtain ⟨hcurrent, hroot⟩ := ne_of_mem_innerComponents h
  rw [leading?]
  split
  · exact fun hc => hroot (Option.some.inj hc).symm
  · split
    · exact fun hc => hcurrent (Option.some.inj hc).symm
    · simp

/-- Below a directory, the front of a path is that of the directory. -/
private theorem IsBelow.leading?_eq {p root : Path} (h : p.IsBelow root) :
    p.leading? = root.leading? ∧ root.innerComponents <+: p.innerComponents := by
  obtain ⟨hne, hpre⟩ := h
  rw [components_eq] at hne
  rw [components_eq, components_eq p] at hpre
  -- the fronts agree or both are missing, for no front is a component inside a path
  cases hroot : root.leading? with
  | some c =>
    cases hp : p.leading? with
    | some d =>
      rw [hroot, hp] at hpre
      obtain ⟨rfl, hinner⟩ := List.cons_prefix_cons.1 hpre
      exact ⟨rfl, hinner⟩
    | none =>
      -- the front of the directory would stand inside the path
      rw [hroot, hp] at hpre
      exact absurd hroot (leading?_ne_of_mem (hpre.subset List.mem_cons_self))
  | none =>
    cases hp : p.leading? with
    | none =>
      rw [hroot, hp] at hpre
      exact ⟨rfl, hpre⟩
    | some d =>
      -- the front of the path would stand inside the directory
      rw [hroot, hp] at hpre
      rw [hroot] at hne
      obtain ⟨c, rest, hinner⟩ := List.exists_cons_of_ne_nil (l := root.innerComponents) hne
      rw [hinner] at hpre
      obtain ⟨rfl, -⟩ := List.cons_prefix_cons.1 hpre
      exact absurd hp (leading?_ne_of_mem (hinner ▸ List.mem_cons_self))

/-- The front of a path says whether it is absolute. -/
theorem isAbsolute_iff_leading? (p : Path) : p.isAbsolute = true ↔ p.leading? = some .root := by
  rw [leading?]
  split
  · simp_all
  · split <;> simp_all

/-- A path below a directory is absolute if the directory is. -/
private theorem IsBelow.isAbsolute_eq {p root : Path} (h : p.IsBelow root) :
    p.isAbsolute = root.isAbsolute := by
  rw [Bool.eq_iff_iff, isAbsolute_iff_leading?, isAbsolute_iff_leading?, h.leading?_eq.1]

/-- The relative parts of a path below a directory are the components that it has beyond those of
    the directory. -/
private theorem IsBelow.exists_rest {p root : Path} (h : p.IsBelow root) :
    ∃ rest, root.innerComponents ++ rest = p.innerComponents ∧
      p.relativeParts root = rest.map componentUnits := by
  obtain ⟨hleading, rest, hrest⟩ := h.leading?_eq
  refine ⟨rest, hrest, ?_⟩
  -- the components of the directory are dropped from the front
  have hdrop : p.relativeComponents root = rest := by
    rw [relativeComponents, if_pos (List.isPrefixOf_iff_prefix.2 h.2), components_eq p, ← hrest,
      hleading, ← List.append_assoc, ← components_eq, List.drop_left]
  -- of what is left, nothing was the front of the path
  have hfilter : rest.filter (· ≠ .current) = rest :=
    filter_ne_current (hrest ▸ List.subset_append_right _ _)
  rw [relativeParts, hdrop, hfilter]

/-- A path below a directory has the words of the directory and then its relative parts. -/
theorem IsBelow.words_append_relativeParts {p root : Path} (h : p.IsBelow root) :
    words root.segments ++ p.relativeParts root = words p.segments := by
  obtain ⟨rest, hrest, hparts⟩ := h.exists_rest
  rw [hparts, ← map_componentUnits_innerComponents, ← List.map_append, hrest,
    map_componentUnits_innerComponents]

/-- A path below a directory has no relative parts only if it is the directory. -/
theorem IsBelow.relativeParts_eq_nil_iff {p root : Path} (h : p.IsBelow root) :
    p.relativeParts root = [] ↔ p.components = root.components := by
  obtain ⟨rest, hrest, hparts⟩ := h.exists_rest
  rw [hparts, List.map_eq_nil_iff, components_eq, components_eq root, h.leading?_eq.1,
    List.append_right_inj, ← hrest]
  exact List.append_right_eq_self.symm

/-- The relative parts of any other path are all its words, behind a slash if it is absolute. -/
private theorem relativeParts_of_not_isBelow {p root : Path} (h : ¬p.IsBelow root) :
    p.relativeParts root = (if p.isAbsolute then [[slash]] else []) ++ words p.segments := by
  -- no components are dropped: those of the directory are missing or are not in front
  have hall : p.relativeComponents root = p.components := by
    rw [relativeComponents]
    split
    · rename_i hpre
      by_cases hne : root.components = []
      · rw [hne]
        rfl
      · exact absurd ⟨hne, List.isPrefixOf_iff_prefix.1 hpre⟩ h
    · rfl
  rw [relativeParts, hall, filter_components, List.map_append, map_componentUnits_innerComponents]
  split <;> rfl

/-! ## The relative path joined to the directory -/

/-- The path of the relative text, seen from the directory again. -/
def rejoin (p root : Path) : Path :=
  root.join (ofString (p.relativeText root))

/-- A word says something. -/
private theorem isVoid_of_mem_words {segs : List FileName} {seg : FileName} (h : seg ∈ words segs) :
    isVoid seg = false := by
  simpa using (List.mem_filter.1 h).2

theorem slash_not_mem_of_mem_words {p : Path} {seg : FileName} (h : seg ∈ words p.segments) :
    slash ∉ seg :=
  slash_not_mem_of_mem_splitUnits seg (List.mem_filter.1 h).1

/-- Parts without slashes are the parts of the path that is made of them. -/
theorem segments_ofSegments {segs : List FileName} (hne : segs ≠ [])
    (h : ∀ seg ∈ segs, slash ∉ seg) : (ofSegments segs).segments = segs :=
  splitUnits_intercalate hne h

/-- A path of parts without slashes of which the first is not empty is relative. -/
theorem isAbsolute_ofSegments {seg : FileName} {segs : List FileName} (hne : seg ≠ [])
    (h : slash ∉ seg) : (ofSegments (seg :: segs)).isAbsolute = false := by
  obtain ⟨u, us, rfl⟩ := List.exists_cons_of_ne_nil hne
  have hu : u ≠ slash := fun hu => h (hu ▸ List.mem_cons_self)
  cases segs with
  | nil => simpa [ofSegments, isAbsolute, List.intercalate] using hu
  | cons seg' segs =>
    rw [ofSegments, List.intercalate_cons_cons]
    simpa [isAbsolute] using hu

/-- Whether the last of some parts is a word. -/
def EndsInWord (segs : List FileName) : Prop :=
  ∃ seg ∈ segs.getLast?, isVoid seg = false

/-- Whether parts end in a word depends on the last of them. -/
theorem EndsInWord.append {b : List FileName} (h : EndsInWord b) (a : List FileName) :
    EndsInWord (a ++ b) := by
  obtain ⟨seg, hseg, hv⟩ := h
  refine ⟨seg, ?_, hv⟩
  rw [Option.mem_def] at hseg
  rw [List.getLast?_append, hseg]
  rfl

/-- Parts that are all words end in one. -/
private theorem endsInWord_of_isVoid {segs : List FileName} (hne : segs ≠ [])
    (h : ∀ seg ∈ segs, isVoid seg = false) : EndsInWord segs :=
  ⟨segs.getLast hne, List.getLast?_eq_some_getLast hne, h _ (List.getLast_mem hne)⟩

theorem EndsInWord.ne_nil {segs : List FileName} (h : EndsInWord segs) : segs ≠ [] := by
  rintro rfl
  obtain ⟨_, hseg, -⟩ := h
  cases hseg

theorem EndsInWord.words_ne_nil {segs : List FileName} (h : EndsInWord segs) : words segs ≠ [] := by
  obtain ⟨seg, hseg, hv⟩ := h
  refine List.ne_nil_of_mem (List.mem_filter.2 ⟨List.mem_of_getLast? hseg, ?_⟩)
  rw [hv]
  rfl

/-- Whether two paths start at the same place and have the same words, and the first one ends in a
    word. -/
structure HasWordsOf (q p : Path) : Prop where
  isAbsolute : q.isAbsolute = p.isAbsolute
  words : words q.segments = words p.segments
  ends : EndsInWord q.segments

/-- A relative path of words. -/
private theorem ofSegments_words {segs : List FileName} (hne : segs ≠ [])
    (hv : ∀ seg ∈ segs, isVoid seg = false) (hslash : ∀ seg ∈ segs, slash ∉ seg) :
    (ofSegments segs).isAbsolute = false ∧ (ofSegments segs).segments = segs := by
  refine ⟨?_, segments_ofSegments hne hslash⟩
  obtain ⟨seg, segs, rfl⟩ := List.exists_cons_of_ne_nil hne
  refine isAbsolute_ofSegments ?_ (hslash seg List.mem_cons_self)
  rintro rfl
  exact absurd (hv [] List.mem_cons_self) (by decide)

variable {p root : Path}

/-- A path below the directory gets its own words back. -/
theorem IsBelow.rejoin_hasWordsOf (h : p.IsBelow root)
    (htext : ∀ seg ∈ words p.segments, IsText seg) (hne : p.relativeParts root ≠ []) :
    (p.rejoin root).HasWordsOf p := by
  -- every relative part is one of the words of the path
  have hsub : ∀ seg ∈ p.relativeParts root, seg ∈ words p.segments := by
    intro seg hseg
    rw [← h.words_append_relativeParts]
    exact List.mem_append_right _ hseg
  have hvoid : ∀ seg ∈ p.relativeParts root, isVoid seg = false :=
    fun seg hseg => isVoid_of_mem_words (hsub seg hseg)
  obtain ⟨habs, hsegs⟩ := ofSegments_words hne hvoid
    fun seg hseg => slash_not_mem_of_mem_words (hsub seg hseg)
  -- the empty path has no components, so nothing is below it
  have hunits : root.units ≠ [] := fun hnil => h.1 (components_of_units_eq_nil hnil)
  have hjoin : (p.rejoin root).segments = root.bodySegments ++ p.relativeParts root := by
    rw [rejoin, ofString_relativeText htext, segments_join hunits habs, hsegs]
  refine ⟨?_, ?_, ?_⟩
  · rw [rejoin, ofString_relativeText htext, isAbsolute_join hunits habs, h.isAbsolute_eq]
  · rw [hjoin, words_append, words_bodySegments, words_of_not_isVoid hvoid,
      h.words_append_relativeParts]
  · rw [hjoin]
    exact (endsInWord_of_isVoid hne hvoid).append _

/-- The directory itself gets an empty part at its end. -/
theorem IsBelow.segments_rejoin_of_eq_nil (h : p.IsBelow root)
    (htext : ∀ seg ∈ words p.segments, IsText seg) (hnil : p.relativeParts root = []) :
    (p.rejoin root).segments = root.bodySegments ++ [[]] := by
  have hunits : root.units ≠ [] := fun hnil => h.1 (components_of_units_eq_nil hnil)
  rw [rejoin, ofString_relativeText htext, hnil, segments_join hunits rfl]
  rfl

/-- Any other relative path is put below the directory a second time. -/
theorem rejoin_hasWordsOf_join (h : ¬p.IsBelow root) (habs : p.isAbsolute = false)
    (htext : ∀ seg ∈ words p.segments, IsText seg) (hends : EndsInWord p.segments) :
    (p.rejoin root).HasWordsOf (root.join p) := by
  -- nothing is taken off the front, and there is no root to be written
  have hparts : p.relativeParts root = words p.segments := by
    rw [relativeParts_of_not_isBelow h, if_neg (by simp [habs]), List.nil_append]
  obtain ⟨habs', hsegs⟩ := ofSegments_words hends.words_ne_nil (fun _ => isVoid_of_mem_words)
    fun _ => slash_not_mem_of_mem_words (p := p)
  have hwords : EndsInWord (words p.segments) :=
    endsInWord_of_isVoid hends.words_ne_nil fun _ => isVoid_of_mem_words
  rw [rejoin, ofString_relativeText htext, hparts]
  -- an empty directory adds nothing, not even a slash
  by_cases hunits : root.units = []
  · rw [join_of_units_eq_nil hunits, join_of_units_eq_nil hunits]
    refine ⟨habs'.trans habs.symm, ?_, ?_⟩
    · rw [hsegs, words_words]
    · rw [hsegs]
      exact hwords
  · refine ⟨?_, ?_, ?_⟩
    · rw [isAbsolute_join hunits habs', isAbsolute_join hunits habs]
    · rw [segments_join hunits habs', segments_join hunits habs, hsegs, words_append, words_append,
        words_words]
    · rw [segments_join hunits habs', hsegs]
      exact hwords.append _

/-- Any other absolute path stays. -/
theorem rejoin_hasWordsOf_self (h : ¬p.IsBelow root) (habs : p.isAbsolute = true)
    (htext : ∀ seg ∈ words p.segments, IsText seg) (hends : EndsInWord p.segments) :
    (p.rejoin root).HasWordsOf p := by
  obtain ⟨seg, segs, hwords⟩ := List.exists_cons_of_ne_nil hends.words_ne_nil
  have hparts : p.relativeParts root = [slash] :: seg :: segs := by
    rw [relativeParts_of_not_isBelow h, if_pos habs, hwords]
    rfl
  have hfree : ∀ s ∈ seg :: segs, slash ∉ s :=
    fun s hs => slash_not_mem_of_mem_words (p := p) (hwords ▸ hs)
  -- the root is written as a slash, and another one parts it from what follows
  have hunits : ofSegments (p.relativeParts root) =
      ⟨slash :: slash :: [slash].intercalate (seg :: segs)⟩ := by
    rw [hparts, ofSegments, List.intercalate_cons_cons]
    rfl
  have hrejoin : p.rejoin root = ⟨slash :: slash :: [slash].intercalate (seg :: segs)⟩ := by
    rw [rejoin, ofString_relativeText htext, hunits, join_of_isAbsolute]
    rfl
  -- the two slashes in front give two empty parts
  have hsegs : (p.rejoin root).segments = [[], []] ++ words p.segments := by
    rw [hrejoin, segments, splitUnits, if_pos rfl, splitUnits, if_pos rfl,
      splitUnits_intercalate (List.cons_ne_nil _ _) hfree, hwords]
    rfl
  refine ⟨?_, ?_, ?_⟩
  · rw [hrejoin, habs]
    rfl
  · rw [hsegs, words_append, words_words]
    rfl
  · rw [hsegs]
    exact (endsInWord_of_isVoid hends.words_ne_nil fun _ => isVoid_of_mem_words).append _

end Path

end IconCompiler
