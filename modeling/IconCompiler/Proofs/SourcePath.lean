import IconCompiler.Asset
import IconCompiler.Proofs.FileSystem.Resolution

/-!
# Source paths

The record of a source keeps the path of the source as a text, relative to the project. Seen from
the project again, this text names the same file in two cases: the path lies below the project, or
putting it below the project once more makes no difference. The project itself is no such path, and
a path that has become too long names nothing.

## Key results

- `exists_asset_of_isFile`: the path of a file has an asset
- `resolve_rejoin_iff`: when the source path of that asset names the file
-/

namespace IconCompiler

open IconCompiler.Path FileSystem

namespace FileName

/-- A name is a text if all of its units are characters. -/
theorem isText_iff {n : FileName} : IsText n ↔ ∀ u ∈ n, ∃ c, u = .char c := by
  constructor
  · rintro ⟨cs, rfl⟩ u hu
    obtain ⟨c, -, rfl⟩ := List.mem_map.1 hu
    exact ⟨c, rfl⟩
  · intro h
    induction n with
    | nil => exact .nil
    | cons u n ih =>
      obtain ⟨c, rfl⟩ := h u List.mem_cons_self
      obtain ⟨cs, rfl⟩ := ih fun v hv => h v (List.mem_cons_of_mem _ hv)
      exact ⟨c :: cs, rfl⟩

/-- A stem is made of units of the name. -/
theorem stem_subset (n : FileName) : n.stem ⊆ n := by
  -- what stands in front of the last dot, read from behind
  have hfront : ∀ front ∈ n.beforeLastDot?, front ⊆ n := by
    intro front hf
    rw [Option.mem_def, beforeLastDot?] at hf
    split at hf
    · cases hf
    · cases hf
    · rename_i u rest _ hdrop
      obtain rfl := (Option.some.inj hf).symm
      intro v hv
      have hmem : v ∈ n.reverse.dropWhile (· ≠ .char '.') :=
        hdrop ▸ List.mem_cons_of_mem _ (List.mem_reverse.1 hv)
      exact List.mem_reverse.1 (List.dropWhile_subset _ hmem)
  rw [stem]
  cases h : n.beforeLastDot? with
  | none => exact List.Subset.refl _
  | some front => exact hfront front h

theorem IsText.stem {n : FileName} (h : IsText n) : IsText n.stem :=
  isText_iff.2 fun u hu => isText_iff.1 h u (stem_subset n hu)

/-- A text can be read as one. -/
theorem IsText.exists_text? {n : FileName} (h : IsText n) : ∃ cs, n.text? = some cs := by
  obtain ⟨cs, rfl⟩ := h
  exact ⟨cs, text?_ofChars cs⟩

end FileName

variable {fs : FileSystem} {p : Path}

/-- The last part of a path is its file name, if it is an ordinary one. -/
theorem fileName?_of_segments {init : List FileName} {name : FileName}
    (hsegs : p.segments = init ++ [name]) (hname : innerComponent? name = some (.name name)) :
    p.fileName? = some name := by
  have hlast : p.components.getLast? = some (.name name) := by
    rw [components, hsegs, List.filterMap_append]
    simp [hname]
  rw [fileName?, hlast]

/-- The path of a file has an asset, which keeps the relative path. -/
theorem exists_asset_of_isFile (hn : fs.tree.WellNamed) (hp : fs.isFile p = true) (root : Path) :
    ∃ a, Asset.ofPath? root p = some a ∧ a.sourcePath root = p.rejoin root := by
  obtain ⟨trail, -, hresolve, -⟩ := exists_of_isFile hp
  obtain ⟨init, name, hsegs, hname⟩ := endsInName_of_isFile hp
  have htext : name.IsText := by
    apply isText_of_resolve hn hresolve name
    rw [hsegs]
    exact List.mem_append_right _ (List.mem_singleton_self name)
  obtain ⟨filename, hfilename⟩ := htext.exists_text?
  obtain ⟨id, hid⟩ := htext.stem.exists_text?
  rw [Asset.ofPath?, fileName?_of_segments hsegs hname]
  simp only [hfilename, hid]
  exact ⟨_, rfl, rfl⟩

/-- The path of a file ends in a word: neither a slash nor a dot can stand behind it. -/
theorem endsInWord_of_isFile (hp : fs.isFile p = true) : EndsInWord p.segments := by
  obtain ⟨init, name, hsegs, hname⟩ := endsInName_of_isFile hp
  exact ⟨name, by rw [hsegs, List.getLast?_concat]; rfl, (innerComponent?_eq_name_iff.1 hname).1⟩

/-- A path names what another one names exactly if it has no fault and leads there. -/
theorem resolve_eq_iff {q : Path} {trail : Trail} (hp : fs.resolve p = .ok trail) :
    fs.resolve q = fs.resolve p ↔ pathFault? q = none ∧ fs.wayTo q = fs.wayTo p := by
  obtain ⟨-, hway⟩ := resolve_eq_ok hp
  rw [hp, hway]
  constructor
  · exact resolve_eq_ok
  · rintro ⟨hfault, hq⟩
    rw [resolve_eq, hfault, hq]

/-- When the source path of an asset names the file that the asset was made of. -/
theorem resolve_rejoin_iff (hn : fs.tree.WellNamed) (hp : fs.isFile p = true) (root : Path) :
    fs.resolve (p.rejoin root) = fs.resolve p ↔
      pathFault? (p.rejoin root) = none ∧ p.components ≠ root.components ∧
        (p.IsBelow root ∨ fs.wayTo (root.join p) = fs.wayTo p) := by
  obtain ⟨trail, content, hresolve, hfile⟩ := exists_of_isFile hp
  have hends := endsInWord_of_isFile hp
  have htext : ∀ seg ∈ words p.segments, seg.IsText :=
    fun seg hseg => isText_of_resolve hn hresolve seg (List.mem_filter.1 hseg).1
  rw [resolve_eq_iff hresolve]
  by_cases hbelow : p.IsBelow root
  · by_cases hnil : p.relativeParts root = []
    · -- a slash stands behind the name of the file, so nothing is named
      have heq := hbelow.relativeParts_eq_nil_iff.1 hnil
      refine ⟨fun h => ?_, fun h => absurd heq h.2.1⟩
      have hway := h.2.trans (resolve_eq_ok hresolve).2
      rw [wayTo, hbelow.segments_rejoin_of_eq_nil htext hnil, ← List.append_assoc] at hway
      cases endsInName_of_resolveFrom hway (by rw [hfile]; rfl)
    · -- the words are the same, and only they matter
      have hway : fs.wayTo (p.rejoin root) = fs.wayTo p :=
        wayTo_of_hasWordsOf (hbelow.rejoin_hasWordsOf htext hnil) hends
      have hne : p.components ≠ root.components :=
        fun heq => hnil (hbelow.relativeParts_eq_nil_iff.2 heq)
      exact ⟨fun h => ⟨h.1, hne, .inl hbelow⟩, fun h => ⟨h.1, hway⟩⟩
  · -- the path is put below the project a second time, or stays if it is absolute
    have hne : p.components ≠ root.components := by
      intro heq
      refine hbelow ⟨?_, heq ▸ List.prefix_refl _⟩
      have hwords := hends.words_ne_nil
      rw [← map_componentUnits_innerComponents, ne_eq, List.map_eq_nil_iff] at hwords
      rw [← heq, components_eq]
      exact fun hnil => hwords (List.append_eq_nil_iff.1 hnil).2
    have hway : fs.wayTo (p.rejoin root) = fs.wayTo (root.join p) := by
      cases habs : p.isAbsolute with
      | true =>
        rw [join_of_isAbsolute root habs]
        exact wayTo_of_hasWordsOf (rejoin_hasWordsOf_self hbelow habs htext hends) hends
      | false =>
        have hends' : EndsInWord (root.join p).segments := by
          by_cases hunits : root.units = []
          · rwa [join_of_units_eq_nil hunits]
          · rw [segments_join hunits habs]
            exact hends.append _
        exact wayTo_of_hasWordsOf (rejoin_hasWordsOf_join hbelow habs htext hends) hends'
    rw [hway]
    exact ⟨fun h => ⟨h.1, hne, .inr h.2⟩, fun h => ⟨h.1, h.2.2.resolve_left hbelow⟩⟩

end IconCompiler
