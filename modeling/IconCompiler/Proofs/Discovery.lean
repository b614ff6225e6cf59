import IconCompiler.Build
import IconCompiler.Proofs.Glob.SourcePattern
import IconCompiler.Proofs.SourcePath

/-!
# What is discovered is what is read

The sources are found along a pattern that starts with the escaped path of their directory, and the
paths that are found start with the components of that directory. They keep the text of the project
in front, and then the source path of an asset leads back to its file, unless the project is spelled
with a dot in front of other components: the walk drops this dot. Such a path is put below the
project a second time.

## Key results

- `prefix_of_mem_discover`: what is found lies in the directory of the sources
- `isBelow_or_wayTo_of_keepsRoot`, `not_isBelow_of_not_keepsRoot`: which projects the paths keep
- `resolve_sourcePath_of_mem_discover`: when the source path of an asset names its file
-/

namespace IconCompiler

open IconCompiler.Path FileSystem

/-! ## The shown directory -/

/-- A unit as it is shown. -/
def shown (u : PathUnit) : PathUnit :=
  match u with
  | .char c => .char c
  | .stray _ => .char '\uFFFD'

/-- A name as it is shown, unit by unit. -/
theorem ofChars_display (n : FileName) : FileName.ofChars n.display = n.map shown := by
  induction n with
  | nil => rfl
  | cons u n ih =>
    rw [List.map_cons, ← ih]
    cases u <;> rfl

/-- Showing a path neither adds nor hides slashes. -/
private theorem shown_eq_slash_iff (u : PathUnit) : shown u = slash ↔ u = slash := by
  cases u with
  | char c => exact Iff.rfl
  | stray bytes => simp [shown, slash]

/-- The parts of a shown path are its parts as they are shown. -/
private theorem splitUnits_map_shown (us : List PathUnit) :
    splitUnits (us.map shown) = (splitUnits us).map (·.map shown) := by
  induction us with
  | nil => rfl
  | cons u us ih =>
    rw [List.map_cons, splitUnits, splitUnits, ih]
    by_cases hu : u = slash
    · rw [if_pos hu, if_pos ((shown_eq_slash_iff u).2 hu)]
      rfl
    · rw [if_neg hu, if_neg (fun h => hu ((shown_eq_slash_iff u).1 h))]
      obtain ⟨s, rest, h⟩ := List.exists_cons_of_ne_nil (splitUnits_ne_nil us)
      rw [h]
      rfl

/-- A part says nothing exactly if it says nothing as it is shown. -/
private theorem isVoid_map_shown (seg : FileName) : isVoid (seg.map shown) = isVoid seg := by
  cases seg with
  | nil => rfl
  | cons u seg =>
    cases seg with
    | nil =>
      cases u with
      | char c => rfl
      -- what is shown in place of stray bytes is no dot
      | stray bytes => simp [isVoid, shown, FileName.dot]
    | cons v seg => simp [isVoid, FileName.dot]

/-- The units of a path that is read back as it is shown. -/
private theorem units_ofString_display (p : Path) :
    (ofString p.display).units = p.units.map shown := by
  rw [← ofChars_display, ofString, display, String.toList_ofList]
  rfl

/-- A path is absolute exactly if it is as it is shown. -/
private theorem isAbsolute_ofString_display (p : Path) :
    (ofString p.display).isAbsolute = p.isAbsolute := by
  rw [isAbsolute, isAbsolute, units_ofString_display]
  cases p.units with
  | nil => rfl
  | cons u us => simp [shown_eq_slash_iff]

/-- A text is shown as it is. -/
private theorem map_shown_of_isText {us : List PathUnit} (h : FileName.IsText us) :
    us.map shown = us := by
  rw [← ofChars_display, h.ofChars_display]

/-- The components inside a path as it is shown. -/
def shownComponents (p : Path) : List PathComponent :=
  (ofString p.display).innerComponents

/-- A path has components inside exactly if it shows some. -/
private theorem shownComponents_eq_nil_iff (p : Path) :
    shownComponents p = [] ↔ p.innerComponents = [] := by
  have hsegs : (ofString p.display).segments = p.segments.map (·.map shown) := by
    rw [segments, units_ofString_display, splitUnits_map_shown]
    rfl
  simp only [shownComponents, innerComponents, hsegs, List.filterMap_eq_nil_iff, List.mem_map,
    forall_exists_index, and_imp, forall_apply_eq_imp_iff₂, innerComponent?_eq_none_iff,
    isVoid_map_shown]

/-- A path whose front is text is shown with that front. -/
private theorem innerComponents_prefix_shownComponents {p q : Path} (hp : FileName.IsText p.units)
    (hq : q.isAbsolute = false) : p.innerComponents <+: shownComponents (p.join q) := by
  by_cases hunits : p.units = []
  · obtain ⟨us⟩ := p
    obtain rfl : us = [] := hunits
    exact List.nil_prefix
  · have hrel : (ofString q.display).isAbsolute = false := by
      rw [isAbsolute_ofString_display, hq]
    have hshown : ofString (p.join q).display = p.join (ofString q.display) := by
      have hus : (ofString (p.join q).display).units = (p.join (ofString q.display)).units := by
        rw [units_ofString_display, units_join p hq, units_join p hrel]
        split
        · rw [List.map_append, map_shown_of_isText hp, units_ofString_display]
        · rw [List.map_append, List.map_cons, map_shown_of_isText hp, units_ofString_display]
          rfl
      exact congrArg Path.mk hus
    rw [shownComponents, hshown, innerComponents_join hunits hrel]
    exact List.prefix_append _ _

/-! ## The order of what is discovered -/

/-- Paths of text that are shown alike are equal. -/
theorem Path.eq_of_display_eq {p q : Path} (hp : FileName.IsText p.units)
    (hq : FileName.IsText q.units) (h : p.display = q.display) : p = q := by
  have hunits : p.units = q.units := by
    rw [← map_shown_of_isText hp, ← map_shown_of_isText hq, ← units_ofString_display,
      ← units_ofString_display, h]
  exact congrArg Path.mk hunits

/-- The order of what is shown is transitive. -/
theorem display_not_lt_trans {p q r : Path} (hpq : (!decide (q.display < p.display)) = true)
    (hqr : (!decide (r.display < q.display)) = true) :
    (!decide (r.display < p.display)) = true := by
  simp only [Bool.not_eq_true', decide_eq_false_iff_not, String.not_lt] at hpq hqr ⊢
  exact String.le_trans hpq hqr

/-- The order of what is shown is total. -/
theorem display_not_lt_total (p q : Path) :
    (!decide (q.display < p.display) || !decide (p.display < q.display)) = true := by
  simp only [Bool.or_eq_true, Bool.not_eq_true', decide_eq_false_iff_not, String.not_lt]
  exact String.le_total _ _

/-- Different paths of text are sorted into a list whose texts increase. -/
theorem pairwise_mergeSort_display {l : List Path} (hnodup : l.Nodup)
    (htext : ∀ p ∈ l, FileName.IsText p.units) :
    (l.mergeSort fun p q => !(q.display < p.display)).Pairwise fun p q => p.display < q.display := by
  have hperm := List.mergeSort_perm l fun p q => !decide (q.display < p.display)
  have hsorted := @List.pairwise_mergeSort Path (fun p q => !decide (q.display < p.display))
    (fun _ _ _ => display_not_lt_trans) display_not_lt_total l
  refine (hsorted.and (hperm.nodup_iff.2 hnodup)).imp_of_mem ?_
  rintro p q hp hq ⟨hle, hne⟩
  by_contra hlt
  simp only [Bool.not_eq_true', decide_eq_false_iff_not, String.not_lt] at hle
  -- equal texts are those of equal paths, and no path occurs twice
  refine hne (eq_of_display_eq (htext p (hperm.mem_iff.1 hp)) (htext q (hperm.mem_iff.1 hq)) ?_)
  exact String.le_antisymm hle (String.not_lt.1 hlt)

/-! ## What is discovered -/

variable {fs : FileSystem} {config : Config} {p : Path} {paths : List Path}

/-- What is discovered is a file that the walk along the pattern finds. -/
theorem mem_walk_of_mem_discover (h : discover fs config = .ok paths) (hp : p ∈ paths) :
    fs.isFile p = true ∧ ∃ pattern, Glob.Pattern.read config.sourceGlob = .ok pattern ∧
      p ∈ Glob.walk fs pattern.parts pattern.start := by
  unfold discover at h
  split at h
  · cases h
  · rename_i pattern hread
    obtain rfl := (Except.ok.inj h).symm
    obtain ⟨hwalk, hfile⟩ := List.mem_filter.1 (List.mem_mergeSort.1 hp)
    exact ⟨hfile, pattern, hread, (List.mem_filter.1 hwalk).1⟩

/-- The text of the pattern: the escaped directory without slashes at its end, and the pattern in
    it. -/
theorem toList_sourceGlob (config : Config) : config.sourceGlob.toList =
    Glob.escape (Glob.trimSlashes config.sourcePath.display.toList) ++ '/' ::
      config.pattern.toList := by
  rw [← Glob.trimSlashes_escape, Config.sourceGlob, String.toList_ofList]
  rfl

/-- The pattern is absolute if the directory of the sources is, or has no text. -/
theorem head?_sourceGlob (config : Config) : config.sourceGlob.toList.head? = some '/' ↔
    config.sourcePath.isAbsolute = true ∨ config.sourcePath.units = [] := by
  have hnil : config.sourcePath.units = [] ↔ config.sourcePath.display.toList = [] := by
    rw [← List.map_eq_nil_iff (f := shown), ← units_ofString_display, ofString,
      List.map_eq_nil_iff]
  rw [toList_sourceGlob, Glob.head?_escape_trimSlashes, ← isAbsolute_ofString_display, isAbsolute,
    hnil, ofString]
  cases config.sourcePath.display.toList with
  | nil => simp
  | cons c cs => simp [slash]

/-- Components that start with the root are those of an absolute path. -/
private theorem isAbsolute_of_prefix (h : [.root] <+: p.components) : p.isAbsolute = true := by
  rw [isAbsolute_iff_leading?]
  rw [components_eq] at h
  cases hp : p.leading? with
  | none =>
    rw [hp] at h
    exact absurd rfl (ne_of_mem_innerComponents (h.subset (List.mem_singleton_self _))).2
  | some c =>
    rw [hp] at h
    rw [(List.cons_prefix_cons.1 h).1]

/-- What an absolute pattern finds is absolute. -/
private theorem isAbsolute_of_mem_walk (hn : fs.tree.WellNamed) {pattern : Glob.Pattern}
    (hread : Glob.Pattern.read config.sourceGlob = .ok pattern)
    (hhead : config.sourceGlob.toList.head? = some '/')
    (hwalk : p ∈ Glob.walk fs pattern.parts pattern.start) : p.isAbsolute = true := by
  obtain ⟨habs, -⟩ := Glob.read_eq_ok hread
  have hstart : pattern.start = ⟨[slash]⟩ := by
    rw [Glob.Pattern.start, habs, if_pos (decide_eq_true hhead)]
  have hroot : Glob.StartsWith [.root] pattern.start := by
    rw [hstart]
    exact ⟨List.cons_ne_nil _ _, by decide⟩
  have hleft : Glob.HasLeft [.root] := ⟨by decide, by decide⟩
  have hparts := Glob.isSlashFree_of_read hread
  exact isAbsolute_of_prefix (Glob.startsWith_of_mem_walk hn hleft hparts hroot p hwalk).front

/-- Components that are shown are more than a dot, so a walk along them has left the current
    directory. -/
private theorem hasLeft_shownComponents {q : Path} (h : shownComponents q ≠ []) :
    Glob.HasLeft (shownComponents q) := by
  refine ⟨h, ?_⟩
  intro hcurrent
  have hmem := hcurrent ▸ List.mem_singleton_self PathComponent.current
  exact absurd rfl (ne_of_mem_innerComponents hmem).1

/-- What a relative pattern finds lies in the directory of the sources as that is shown. -/
private theorem shownComponents_prefix_of_mem_walk (hn : fs.tree.WellNamed) {pattern : Glob.Pattern}
    (hread : Glob.Pattern.read config.sourceGlob = .ok pattern)
    (hhead : config.sourceGlob.toList.head? ≠ some '/')
    (hwalk : p ∈ Glob.walk fs pattern.parts pattern.start) :
    shownComponents config.sourcePath <+: p.components := by
  obtain ⟨habs, -⟩ := Glob.read_eq_ok hread
  have hstart : pattern.start = .dot := by
    rw [Glob.Pattern.start, habs, if_neg (by simpa using hhead)]
  -- the walk goes along the names of the directory, and then along the rest of the pattern
  obtain ⟨more, hmore⟩ := Glob.parts_of_read hread (toList_sourceGlob config) hhead
  rw [hmore, hstart] at hwalk
  obtain ⟨p', hwalk', hp'⟩ := Glob.exists_of_mem_walk_of_isCurrent
    (fun _ => Glob.slash_not_mem_of_mem_splitSlashes _) (by decide) hwalk
  have hshown : Glob.innerOf (Glob.splitSlashes
      (Glob.trimSlashes config.sourcePath.display.toList)) =
        shownComponents config.sourcePath := by
    rw [Glob.innerOf_trimSlashes, Glob.innerOf_splitSlashes]
    rfl
  rw [hshown] at hp'
  by_cases hnil : shownComponents config.sourcePath = []
  · rw [hnil]
    exact List.nil_prefix
  · obtain ⟨hunits, hcomponents⟩ := hp'.resolve_left hnil
    have hfree : ∀ part ∈ more, part.IsSlashFree := by
      intro part hpart
      exact Glob.isSlashFree_of_read hread part (hmore ▸ List.mem_append_right _ hpart)
    have hstarts : Glob.StartsWith (shownComponents config.sourcePath) p' :=
      ⟨hunits, hcomponents ▸ List.prefix_refl _⟩
    have hleft := hasLeft_shownComponents hnil
    exact (Glob.startsWith_of_mem_walk hn hleft hfree hstarts p hwalk').front

/-- What is discovered lies in the directory of the sources as that is shown. A pattern that is
    absolute finds absolute paths. -/
theorem prefix_of_mem_discover (hn : fs.tree.WellNamed) (h : discover fs config = .ok paths)
    (hp : p ∈ paths) : p.isAbsolute = true ∨ (config.sourcePath.isAbsolute = false ∧
      config.sourcePath.units ≠ [] ∧ shownComponents config.sourcePath <+: p.components) := by
  obtain ⟨-, pattern, hread, hwalk⟩ := mem_walk_of_mem_discover h hp
  by_cases hhead : config.sourceGlob.toList.head? = some '/'
  · exact .inl (isAbsolute_of_mem_walk hn hread hhead hwalk)
  · have hrel := hhead
    rw [head?_sourceGlob, not_or] at hrel
    exact .inr ⟨by simpa using hrel.1, hrel.2,
      shownComponents_prefix_of_mem_walk hn hread hhead hwalk⟩

/-! ## The text of the project -/

/-- Whether what is found keeps the text of the project in front: the directory of the sources is
    absolute, or the text of the project is text and has no dot in front of other components. -/
def Config.KeepsRoot (config : Config) : Prop :=
  config.sourcePath.isAbsolute = true ∨
    (FileName.IsText config.root.units ∧
      ∀ c rest, config.root.components ≠ .current :: c :: rest)

/-- An absolute directory would make the joined path absolute. -/
private theorem isAbsolute_sourceDir (h : config.sourcePath.isAbsolute = false) :
    config.sourceDir.isAbsolute = false := by
  rw [← Bool.not_eq_true]
  intro habs
  rw [Config.sourcePath, join_of_isAbsolute _ habs, habs] at h
  cases h

/-- A path seen from a directory that says nothing leads where it led before. -/
private theorem wayTo_join_of_innerComponents {root : Path} (hroot : root.isAbsolute = false)
    (hinner : root.innerComponents = []) (hp : fs.isFile p = true) :
    fs.wayTo (root.join p) = fs.wayTo p := by
  by_cases hunits : root.units = []
  · rw [join_of_units_eq_nil hunits]
  · cases habs : p.isAbsolute with
    | true => rw [join_of_isAbsolute root habs]
    | false =>
      have hends := endsInWord_of_isFile hp
      have hwords : words root.segments = [] := by
        rw [← map_componentUnits_innerComponents, hinner]
        rfl
      refine wayTo_of_hasWordsOf ⟨?_, ?_, ?_⟩ hends
      · rw [isAbsolute_join hunits habs, hroot, habs]
      · rw [segments_join hunits habs, words_append, words_bodySegments, hwords, List.nil_append]
      · rw [segments_join hunits habs]
        exact hends.append _

/-- What is found keeps the project in front, or finds the same without it. -/
theorem isBelow_or_wayTo_of_keepsRoot (hn : fs.tree.WellNamed)
    (h : discover fs config = .ok paths) (hp : p ∈ paths) (hk : config.KeepsRoot) :
    p.IsBelow config.root ∨ fs.wayTo (config.root.join p) = fs.wayTo p := by
  have hfile := (mem_walk_of_mem_discover h hp).1
  rcases prefix_of_mem_discover hn h hp with habs | ⟨hrel, hunits, hshown⟩
  · exact .inr (by rw [join_of_isAbsolute _ habs])
  · rcases hk with habs | ⟨htext, hdot⟩
    · rw [hrel] at habs
      cases habs
    · -- neither the project nor the directory seen from it is absolute
      have hsource := isAbsolute_sourceDir hrel
      have hroot : config.root.isAbsolute = false := by
        by_cases hnil : config.root.units = []
        · rw [isAbsolute, hnil]
          rfl
        · rw [← isAbsolute_join hnil hsource]
          exact hrel
      have hpre : config.root.innerComponents <+: p.components :=
        (innerComponents_prefix_shownComponents htext hsource).trans hshown
      cases hleading : config.root.leading? with
      | none =>
        -- a project without a dot in front is in front of the path, or says nothing
        have hcomponents : config.root.components = config.root.innerComponents := by
          rw [components_eq, hleading]
          rfl
        by_cases hnil : config.root.innerComponents = []
        · exact .inr (wayTo_join_of_innerComponents hroot hnil hfile)
        · exact .inl ⟨hcomponents ▸ hnil, hcomponents ▸ hpre⟩
      | some c =>
        have hcurrent : c = .current := by
          rw [leading?, hroot, if_neg Bool.false_ne_true] at hleading
          split at hleading
          · exact (Option.some.inj hleading).symm
          · cases hleading
        -- a project with one is nothing but that dot
        have hnil : config.root.innerComponents = [] := by
          cases hinner : config.root.innerComponents with
          | nil => rfl
          | cons d rest =>
            refine absurd ?_ (hdot d rest)
            rw [components_eq, hleading, hcurrent, hinner]
            rfl
        exact .inr (wayTo_join_of_innerComponents hroot hnil hfile)

/-- A path that holds nothing but text lies below no directory that holds something else. -/
private theorem isText_of_isBelow {root : Path} (hp : ∀ seg ∈ p.segments, FileName.IsText seg)
    (h : p.IsBelow root) : FileName.IsText root.units := by
  have hwords : ∀ seg ∈ words root.segments, FileName.IsText seg := by
    intro seg hseg
    refine hp seg (List.mem_filter.1 (?_ : seg ∈ words p.segments)).1
    rw [← h.words_append_relativeParts]
    exact List.mem_append_left _ hseg
  have hsegs : ∀ seg ∈ root.segments, FileName.IsText seg := by
    intro seg hseg
    by_cases hv : isVoid seg = true
    · -- nothing, or a dot
      simp only [isVoid, Bool.or_eq_true, decide_eq_true_eq] at hv
      rcases hv with rfl | rfl
      · exact .nil
      · exact ⟨['.'], rfl⟩
    · exact hwords seg (List.mem_filter.2 ⟨hseg, by simp [hv]⟩)
  rw [← ofSegments_segments root]
  exact FileName.IsText.intercalate hsegs

/-- What is found loses the front of any other project. -/
theorem not_isBelow_of_not_keepsRoot (hn : fs.tree.WellNamed)
    (h : discover fs config = .ok paths) (hp : p ∈ paths) (hk : ¬config.KeepsRoot)
    (habs : p.isAbsolute = false) : ¬p.IsBelow config.root := by
  intro hbelow
  rw [Config.KeepsRoot, not_or, not_and_or] at hk
  obtain ⟨trail, -, hresolve, -⟩ := exists_of_isFile (mem_walk_of_mem_discover h hp).1
  rcases prefix_of_mem_discover hn h hp with habs' | ⟨hrel, -, hshown⟩
  · rw [habs] at habs'
    cases habs'
  · rcases hk.2 with htext | hdot
    · -- a path that names something is text, and no other directory can be in front of it
      exact htext (isText_of_isBelow (isText_of_resolve hn hresolve) hbelow)
    · simp only [not_forall, ne_eq, Decidable.not_not] at hdot
      obtain ⟨c, rest, hroot⟩ := hdot
      -- the path starts with a component of the directory, so with no dot
      have hinner : (shownComponents config.sourcePath) ≠ [] := by
        rw [ne_eq, shownComponents_eq_nil_iff]
        intro hnil
        have hpre := components_prefix_join config.root (isAbsolute_sourceDir hrel)
        rw [← Config.sourcePath, hroot, components_eq, hnil, List.append_nil] at hpre
        have hlen := hpre.length_le
        cases hleading : config.sourcePath.leading? <;> rw [hleading] at hlen <;> simp at hlen
      obtain ⟨d, ds, hd⟩ := List.exists_cons_of_ne_nil hinner
      have hmem : d ∈ shownComponents config.sourcePath := hd ▸ List.mem_cons_self
      obtain ⟨more, hmore⟩ := hshown
      obtain ⟨more', hmore'⟩ := hbelow.2
      rw [hd, ← hmore', hroot] at hmore
      exact (ne_of_mem_innerComponents hmem).1 (List.cons.inj hmore).1

/-! ## Reading what is discovered -/

/-- A path that names a file can be read, though perhaps not as a text. -/
private theorem readText_ne_notFound {trail : Trail} {content : ByteArray}
    (h : fs.resolve p = .ok trail) (hfile : fs.treeAt trail = .file content) :
    fs.readText p ≠ .error .notFound := by
  have hbytes : fs.readBytes p = .ok content := by
    rw [readBytes, h]
    simp only [hfile]
  rw [readText, hbytes]
  cases htext : String.fromUTF8? content with
  | none => simp [htext]
  | some s => simp [htext]

/-- An asset whose source is found fails with no error that says otherwise. -/
private theorem renderAsset_ne_notFound {root : Path} {a : Asset}
    (h : fs.readText (a.sourcePath root) ≠ .error .notFound) (viewBox : String)
    (cleaner : Markup.Cleaner) (q : Path) :
    renderAsset fs root a viewBox cleaner ≠ .error (.io q .notFound) := by
  unfold renderAsset
  split
  · rename_i e he
    rw [he] at h
    intro heq
    simp_all
  · split
    · simp
    · simp

/-- What is discovered has an asset whose source path names the same file, if neither that path is
    too long nor the file is the project itself, for every project that is kept in front; for any
    other one, exactly if putting the path below the project once more makes no difference. Then
    the file is found when the asset is rendered. -/
theorem resolve_sourcePath_of_mem_discover (hn : fs.tree.WellNamed)
    (h : discover fs config = .ok paths) (hp : p ∈ paths) :
    ∃ a, Asset.ofPath? config.root p = some a ∧
      (fs.resolve (a.sourcePath config.root) = fs.resolve p ↔
        pathFault? (a.sourcePath config.root) = none ∧ p.components ≠ config.root.components ∧
          (config.KeepsRoot ∨ fs.wayTo (config.root.join p) = fs.wayTo p)) ∧
      (fs.resolve (a.sourcePath config.root) = fs.resolve p → ∀ viewBox cleaner q,
        renderAsset fs config.root a viewBox cleaner ≠ .error (.io q .notFound)) := by
  have hfile := (mem_walk_of_mem_discover h hp).1
  obtain ⟨a, ha, hsource⟩ := exists_asset_of_isFile hn hfile config.root
  have hplace : p.IsBelow config.root ∨ fs.wayTo (config.root.join p) = fs.wayTo p ↔
      config.KeepsRoot ∨ fs.wayTo (config.root.join p) = fs.wayTo p := by
    cases habs : p.isAbsolute with
    | true =>
      rw [join_of_isAbsolute _ habs]
      exact ⟨fun _ => .inr rfl, fun _ => .inr rfl⟩
    | false =>
      by_cases hk : config.KeepsRoot
      · exact ⟨fun _ => .inl hk, fun _ => isBelow_or_wayTo_of_keepsRoot hn h hp hk⟩
      · have hbelow := not_isBelow_of_not_keepsRoot hn h hp hk habs
        exact or_congr_left (iff_of_false hbelow hk)
  refine ⟨a, ha, ?_, ?_⟩
  · rw [hsource, resolve_rejoin_iff hn hfile, hplace]
  · intro hsame viewBox cleaner q
    obtain ⟨trail, content, hresolve, htree⟩ := exists_of_isFile hfile
    exact renderAsset_ne_notFound (readText_ne_notFound (hsame.trans hresolve) htree) viewBox
      cleaner q

/-! ## A project with a source -/

/-- The path of the source in `oneSource`. -/
def onePath : Path :=
  .ofString "p/source/a.svg"

/-- A project `p` in the current directory `w`, with one source. -/
def oneSource : FileSystem :=
  (FileSystem.fresh [.ofChars ['w']]).putFile
    [.ofChars ['w'], .ofChars ['p'], .ofChars "source".toList, .ofChars "a.svg".toList]
    ByteArray.empty

/-- The project with one source has names that a file system can hold. -/
private theorem wellNamed_oneSource : oneSource.tree.WellNamed := by
  have hfresh : (FileTree.chain [.ofChars ['w']]).WellNamed :=
    FileTree.wellNamed_chain (by simpa using FileName.isFileName_ofChars (by decide))
  exact hfresh.put_ofChars [['w'], ['p'], "source".toList, "a.svg".toList] _ (by decide)

/-- Spelled without a dot, the project is kept in front of its source, which is found. -/
theorem resolve_sourcePath_of_plain_project :
    oneSource.tree.WellNamed ∧
      discover oneSource { root := .ofString "p" } = .ok [onePath] ∧
      ∃ a, Asset.ofPath? (.ofString "p") onePath = some a ∧
        oneSource.resolve (a.sourcePath (.ofString "p")) = oneSource.resolve onePath := by
  have hdiscover : discover oneSource { root := .ofString "p" } = .ok [onePath] :=
    ok_of_toOption (by decide +kernel)
  refine ⟨wellNamed_oneSource, hdiscover, ?_⟩
  obtain ⟨a, ha, hiff, -⟩ := resolve_sourcePath_of_mem_discover wellNamed_oneSource hdiscover
    (List.mem_singleton_self onePath)
  have hasset : Asset.ofPath? (.ofString "p") onePath =
      some ⟨"a", "A", "source", "a.svg", "source/a.svg"⟩ := by decide +kernel
  obtain rfl := Option.some.inj (hasset.symm.trans ha)
  have hkeeps : Config.KeepsRoot { root := .ofString "p" } := by
    refine .inr ⟨⟨['p'], rfl⟩, ?_⟩
    intro c rest hroot
    have hname : (Path.ofString "p").components = [.name (.ofChars ['p'])] := by decide +kernel
    cases hname.symm.trans hroot
  exact ⟨_, ha, hiff.2 ⟨by decide +kernel, by decide +kernel, .inl hkeeps⟩⟩

/-- Spelled with a dot in front, the project is put in front of its source a second time. -/
theorem resolve_sourcePath_of_dotted_project :
    oneSource.tree.WellNamed ∧
      discover oneSource { root := .ofString "./p" } = .ok [onePath] ∧
      ∃ a, Asset.ofPath? (.ofString "./p") onePath = some a ∧
        oneSource.resolve (a.sourcePath (.ofString "./p")) ≠ oneSource.resolve onePath ∧
        renderAsset oneSource (.ofString "./p") a Component.defaultViewBox .standard =
          .error (.io (.ofString "./p/p/source/a.svg") .notFound) := by
  have hpath : Asset.sourcePath ⟨"a", "A", "source", "a.svg", "p/source/a.svg"⟩
      (.ofString "./p") = .ofString "./p/p/source/a.svg" := by decide +kernel
  have hfound : oneSource.contains onePath = true := by decide +kernel
  have hlost : oneSource.contains (.ofString "./p/p/source/a.svg") = false := by decide +kernel
  have hread : oneSource.readText (.ofString "./p/p/source/a.svg") = .error .notFound := by
    decide +kernel
  refine ⟨wellNamed_oneSource, ok_of_toOption (by decide +kernel),
    ⟨"a", "A", "source", "a.svg", "p/source/a.svg"⟩, by decide +kernel, ?_, ?_⟩
  · rw [hpath]
    intro hsame
    rw [contains, find?, hsame, ← find?, ← contains, hfound] at hlost
    cases hlost
  · rw [renderAsset, hpath, hread]

end IconCompiler
