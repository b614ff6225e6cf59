import IconCompiler.Path

/-!
# The parts of joined paths

A path is the list of its parts between slashes. Joining two paths appends the lists, but for the
empty part that a slash at the end of the first one leaves; so the components of the first path stay
where they are. Of a list of parts only the words count: those that are neither empty nor a dot.

## Key results

- `segments_join`: the parts of a joined path
- `components_join`: the components of a joined path
- `map_componentUnits_innerComponents`: the components inside a path are its words
-/

namespace IconCompiler

namespace Path

/-! ## Parts between slashes -/

/-- A path has a part at least, if only an empty one. -/
theorem splitUnits_ne_nil (us : List PathUnit) : splitUnits us ≠ [] := by
  cases us with
  | nil => exact List.cons_ne_nil _ _
  | cons u us =>
    rw [splitUnits]
    split
    · exact List.cons_ne_nil _ _
    · split <;> exact List.cons_ne_nil _ _

/-- A slash parts what stands before it from what follows. -/
private theorem splitUnits_append_slash (a b : List PathUnit) :
    splitUnits (a ++ slash :: b) = splitUnits a ++ splitUnits b := by
  -- unit by unit, up to the slash
  induction a with
  | nil => simp [splitUnits]
  -- the first part of a list that is not empty takes one more unit
  | cons u a ih =>
    simp only [List.cons_append, splitUnits, ih]
    split
    · rfl
    · cases h : splitUnits a with
      | nil => exact absurd h (splitUnits_ne_nil a)
      | cons s rest => rfl

/-- Without a slash there is one part. -/
theorem splitUnits_of_not_mem {us : List PathUnit} (h : slash ∉ us) : splitUnits us = [us] := by
  induction us with
  | nil => rfl
  | cons u us ih =>
    rw [List.mem_cons, not_or] at h
    rw [splitUnits, if_neg (Ne.symm h.1), ih h.2]

/-- No part holds a slash. -/
theorem slash_not_mem_of_mem_splitUnits {us : List PathUnit} :
    ∀ seg ∈ splitUnits us, slash ∉ seg := by
  induction us with
  | nil => simp [splitUnits]
  | cons u us ih =>
    intro seg hseg
    rw [splitUnits] at hseg
    split at hseg
    · rcases List.mem_cons.1 hseg with rfl | hseg
      · exact List.not_mem_nil
      · exact ih seg hseg
    · -- the unit goes to the first part of the rest, or is a part of its own
      rename_i hu
      split at hseg
      · rw [List.mem_singleton] at hseg
        simpa [hseg] using Ne.symm hu
      · rename_i s rest heq
        rcases List.mem_cons.1 hseg with rfl | hseg
        · have hs := ih s (heq ▸ List.mem_cons_self)
          exact fun hmem => (List.mem_cons.1 hmem).elim (fun h => hu h.symm) hs
        · exact ih seg (heq ▸ List.mem_cons_of_mem _ hseg)

/-- Parts without slashes are found again where slashes part them. -/
theorem splitUnits_intercalate {segs : List FileName} (hne : segs ≠ [])
    (h : ∀ seg ∈ segs, slash ∉ seg) : splitUnits ([slash].intercalate segs) = segs := by
  induction segs with
  | nil => exact absurd rfl hne
  | cons seg segs ih =>
    -- the first part has no slash in it, so it ends where the one between the parts stands
    have hseg : splitUnits seg = [seg] := splitUnits_of_not_mem (h seg List.mem_cons_self)
    cases segs with
    | nil => simpa [List.intercalate] using hseg
    | cons seg' segs =>
      have ih' := ih (List.cons_ne_nil _ _) fun s hs => h s (List.mem_cons_of_mem _ hs)
      rw [List.intercalate_cons_cons, List.append_assoc, List.singleton_append,
        splitUnits_append_slash, hseg, ih']
      rfl

/-- A path is its parts with slashes between them. -/
theorem ofSegments_segments (p : Path) : ofSegments p.segments = p := by
  obtain ⟨us⟩ := p
  show Path.mk ([slash].intercalate (splitUnits us)) = _
  congr 1
  -- unit by unit: each is put in front of what the rest is joined to
  induction us with
  | nil => rfl
  | cons u us ih =>
    rw [splitUnits]
    -- a slash starts a new part, and anything else goes to the first one
    obtain ⟨s, rest, hsplit⟩ := List.exists_cons_of_ne_nil (splitUnits_ne_nil us)
    rw [hsplit] at ih ⊢
    split
    · rename_i hu
      rw [List.intercalate_cons_cons, ih, hu]
      rfl
    · cases rest with
      | nil => simpa [List.intercalate] using ih
      | cons s' rest =>
        rw [List.intercalate_cons_cons] at ih ⊢
        rw [← ih]
        rfl

/-! ## Joined paths -/

/-- The parts of a path that stay when something is joined to it: not the one after a slash at its
    end. -/
def bodySegments (p : Path) : List FileName :=
  if p.units.getLast? = some slash then p.segments.dropLast else p.segments

/-- Behind a slash at the end stands an empty part. -/
theorem segments_of_ends_slash {p : Path} (h : p.units.getLast? = some slash) :
    p.segments = p.bodySegments ++ [[]] ∧ p.bodySegments ≠ [] := by
  obtain ⟨us⟩ := p
  obtain ⟨init, rfl⟩ := List.getLast?_eq_some_iff.1 h
  have hsegs : segments ⟨init ++ [slash]⟩ = splitUnits init ++ [[]] :=
    splitUnits_append_slash init []
  rw [bodySegments, if_pos h, hsegs, List.dropLast_concat]
  exact ⟨rfl, splitUnits_ne_nil init⟩

/-- The parts of a joined path. -/
theorem segments_join {p q : Path} (hp : p.units ≠ []) (hq : q.isAbsolute = false) :
    (p.join q).segments = p.bodySegments ++ q.segments := by
  obtain ⟨us⟩ := p
  rw [join, if_neg (by simp [hq])]
  -- a slash at the end of the first path makes another one needless
  by_cases hlast : us.getLast? = some slash
  · obtain ⟨init, rfl⟩ := List.getLast?_eq_some_iff.1 hlast
    -- the empty part behind it is the one that does not stay
    have hbody : bodySegments ⟨init ++ [slash]⟩ = splitUnits init := by
      rw [bodySegments, if_pos hlast]
      show (splitUnits (init ++ slash :: [])).dropLast = _
      rw [splitUnits_append_slash]
      exact List.dropLast_concat
    rw [if_pos (by simp), hbody]
    show splitUnits (init ++ [slash] ++ q.units) = _
    rw [List.append_assoc, List.singleton_append, splitUnits_append_slash]
    rfl
  · have hus : us ≠ [] := hp
    rw [if_neg (by simp [hlast, hus]), bodySegments, if_neg hlast]
    exact splitUnits_append_slash us q.units

/-- A slash is put between the two texts, unless one stands there or the first text is empty. -/
theorem units_join (p : Path) {q : Path} (hq : q.isAbsolute = false) : (p.join q).units =
    if p.units = [] || p.units.getLast? = some slash then p.units ++ q.units
    else p.units ++ slash :: q.units := by
  rw [join, if_neg (by simp [hq])]
  split <;> rfl

theorem join_of_units_eq_nil {p : Path} (hp : p.units = []) (q : Path) : p.join q = q := by
  obtain ⟨us⟩ := p
  obtain rfl : us = [] := hp
  rw [join]
  split
  · rfl
  · simp

/-- An absolute path takes the place of the one that it is joined to. -/
theorem join_of_isAbsolute (p : Path) {q : Path} (hq : q.isAbsolute = true) : p.join q = q := by
  rw [join, if_pos hq]

/-- A joined path starts where its first path starts. -/
theorem isAbsolute_join {p q : Path} (hp : p.units ≠ []) (hq : q.isAbsolute = false) :
    (p.join q).isAbsolute = p.isAbsolute := by
  obtain ⟨u, us, hus⟩ := List.exists_cons_of_ne_nil hp
  rw [join, if_neg (by simp [hq])]
  split <;> simp [isAbsolute, hus]

/-! ## Components -/

/-- The components inside a path: all but the one that only its front can have. -/
def innerComponents (p : Path) : List PathComponent :=
  p.segments.filterMap innerComponent?

theorem components_eq (p : Path) : p.components = p.leading?.toList ++ p.innerComponents := rfl

/-- No part inside a path is the root. -/
private theorem innerComponent?_ne_root (seg : FileName) : innerComponent? seg ≠ some .root := by
  unfold innerComponent?
  split
  · simp
  · split <;> simp

/-- A part is a name if it says something and is no double dot. -/
theorem innerComponent?_eq_name_iff {seg name : FileName} :
    innerComponent? seg = some (.name name) ↔
      isVoid seg = false ∧ seg ≠ FileName.dotDot ∧ seg = name := by
  unfold innerComponent?
  split
  · rename_i hv
    exact ⟨by simp, fun h => absurd hv (by simp [h.1])⟩
  · rename_i hv
    split
    · rename_i hd
      exact ⟨by simp, fun h => absurd hd h.2.1⟩
    · -- all that is left is a name
      rename_i hd
      simp [hv, hd]

/-- A component inside a path is no dot and not the root: it is a name or a double dot. -/
theorem ne_of_mem_innerComponents {p : Path} {c : PathComponent} (h : c ∈ p.innerComponents) :
    c ≠ .current ∧ c ≠ .root := by
  obtain ⟨seg, -, hseg⟩ := List.mem_filterMap.1 h
  constructor
  · rintro rfl
    exact innerComponent?_ne_current seg hseg
  · rintro rfl
    exact innerComponent?_ne_root seg hseg

/-- The empty part behind a slash at the end is no component. -/
private theorem innerComponents_bodySegments (p : Path) :
    p.bodySegments.filterMap innerComponent? = p.innerComponents := by
  by_cases h : p.units.getLast? = some slash
  · obtain ⟨hsegs, -⟩ := segments_of_ends_slash h
    rw [innerComponents, hsegs, List.filterMap_append]
    simp [innerComponent?, isVoid]
  · rw [bodySegments, if_neg h]
    rfl

/-- A part at least stays when something is joined to a path. -/
private theorem bodySegments_ne_nil (p : Path) : p.bodySegments ≠ [] := by
  by_cases h : p.units.getLast? = some slash
  · exact (segments_of_ends_slash h).2
  · rw [bodySegments, if_neg h]
    exact splitUnits_ne_nil p.units

/-- The first part of a path stays when something is joined to it. -/
private theorem head?_bodySegments (p : Path) : p.bodySegments.head? = p.segments.head? := by
  by_cases h : p.units.getLast? = some slash
  · obtain ⟨hsegs, hne⟩ := segments_of_ends_slash h
    -- of parts that are not empty, the first one is not the last one that is dropped
    obtain ⟨seg, segs, hbody⟩ := List.exists_cons_of_ne_nil hne
    rw [hsegs, hbody]
    rfl
  · rw [bodySegments, if_neg h]

/-- The components inside a joined path are those of its two paths. -/
theorem innerComponents_join {p q : Path} (hp : p.units ≠ []) (hq : q.isAbsolute = false) :
    (p.join q).innerComponents = p.innerComponents ++ q.innerComponents := by
  rw [innerComponents, segments_join hp hq, List.filterMap_append, innerComponents_bodySegments]
  rfl

/-- The front of a joined path is that of its first path. -/
private theorem leading?_join {p q : Path} (hp : p.units ≠ []) (hq : q.isAbsolute = false) :
    (p.join q).leading? = p.leading? := by
  -- the front is told by the first unit and the first part, and both stay
  have hhead : (p.join q).segments.head? = p.segments.head? := by
    obtain ⟨seg, segs, hbody⟩ := List.exists_cons_of_ne_nil (bodySegments_ne_nil p)
    rw [segments_join hp hq, ← head?_bodySegments, hbody]
    rfl
  rw [leading?, leading?, isAbsolute_join hp hq, hhead]

/-- The components of a joined path. -/
theorem components_join {p q : Path} (hp : p.units ≠ []) (hq : q.isAbsolute = false) :
    (p.join q).components = p.components ++ q.innerComponents := by
  rw [components_eq, components_eq, leading?_join hp hq, innerComponents_join hp hq,
    List.append_assoc]

theorem components_of_units_eq_nil {p : Path} (h : p.units = []) : p.components = [] := by
  obtain ⟨us⟩ := p
  obtain rfl : us = [] := h
  rfl

/-- What is joined to a path goes on from its components. -/
theorem components_prefix_join (p : Path) {q : Path} (hq : q.isAbsolute = false) :
    p.components <+: (p.join q).components := by
  by_cases hp : p.units = []
  · rw [components_of_units_eq_nil hp]
    exact List.nil_prefix
  · rw [components_join hp hq]
    exact List.prefix_append _ _

/-! ## Words -/

/-- The parts that say something. -/
def words (segs : List FileName) : List FileName :=
  segs.filter fun seg => !isVoid seg

theorem words_append (a b : List FileName) : words (a ++ b) = words a ++ words b :=
  List.filter_append _ _

/-- Parts that all say something are all words. -/
theorem words_of_not_isVoid {segs : List FileName} (h : ∀ seg ∈ segs, isVoid seg = false) :
    words segs = segs := by
  rw [words, List.filter_eq_self]
  intro seg hseg
  rw [h seg hseg]
  rfl

theorem words_words (segs : List FileName) : words (words segs) = words segs :=
  words_of_not_isVoid fun seg hseg => by simpa using (List.mem_filter.1 hseg).2

/-- No word is lost with the empty part behind a slash at the end. -/
theorem words_bodySegments (p : Path) : words p.bodySegments = words p.segments := by
  by_cases h : p.units.getLast? = some slash
  · obtain ⟨hsegs, -⟩ := segments_of_ends_slash h
    rw [hsegs, words_append]
    simp [words, isVoid]
  · rw [bodySegments, if_neg h]

/-- The components of parts are their words. -/
private theorem map_componentUnits_filterMap (segs : List FileName) :
    (segs.filterMap innerComponent?).map componentUnits = words segs := by
  induction segs with
  | nil => rfl
  | cons seg segs ih =>
    rw [words, List.filter_cons, List.filterMap_cons]
    -- a part is left out of both lists, or its component is written as the part
    by_cases hv : isVoid seg = true
    · simp only [(innerComponent?_eq_none_iff seg).2 hv, hv, Bool.not_true]
      exact ih
    · -- a word that is no double dot is a name, and both are written as they stand
      have hunits : ∃ c, innerComponent? seg = some c ∧ componentUnits c = seg := by
        rw [innerComponent?, if_neg hv]
        split
        · rename_i hd
          exact ⟨.parent, rfl, hd.symm⟩
        · exact ⟨.name seg, rfl, rfl⟩
      obtain ⟨c, hc, hunits⟩ := hunits
      simp only [hc, hv, List.map_cons, hunits, ih]
      rfl

/-- The components inside a path are its words. -/
theorem map_componentUnits_innerComponents (p : Path) :
    p.innerComponents.map componentUnits = words p.segments :=
  map_componentUnits_filterMap p.segments

end Path

end IconCompiler
