import IconCompiler.Proofs.FileSystem.Resolution

/-!
# What changes to a file system change

Two views of a file system are enough to follow it through writes: the content of the file under a
key, and which keys are directories. A write changes the first view at one key and leaves the second
one; making directories leaves the first one and adds to the second. Paths that name something go on
naming it through both.

## Key results

- `write_eq_ok`: a write changes the content under one key, which its path names from then on
- `grows_createDirs`: making directories changes no file
- `Names.of_keeps`: what a path names stays under the same key
-/

namespace IconCompiler

open IconCompiler.Path

namespace FileTree

theorem child?_file (content : ByteArray) (name : FileName) :
    (file content).child? name = none := rfl

/-- The directories that lead to a key are there once something is put under it. -/
private theorem at?_put_of_prefix (t new : FileTree) {k key : FileKey} (h : k <+: key)
    (hne : k ≠ key) :
    ∃ es, (t.put key new).at? k = some (.dir es) := by
  induction key generalizing t k with
  | nil => exact absurd (List.prefix_nil.1 h) hne
  | cons name key ih =>
    cases k with
    | nil => exact ⟨_, rfl⟩
    | cons name' k =>
      obtain ⟨rfl, hpre⟩ := List.cons_prefix_cons.1 h
      simp only [at?, child?_put_cons, if_true]
      exact ih ((t.child? name').getD empty) hpre fun heq => hne (by rw [heq])

/-- Whatever leads to something is a directory. -/
theorem exists_dir_of_at?_append {t s : FileTree} {a b : FileKey} (hb : b ≠ [])
    (h : t.at? (a ++ b) = some s) : ∃ es, t.at? a = some (.dir es) := by
  rw [at?_append] at h
  obtain ⟨u, hu, hs⟩ := Option.bind_eq_some_iff.1 h
  cases u with
  | dir es => exact ⟨es, hu⟩
  | file content =>
    obtain ⟨name, b, rfl⟩ := List.exists_cons_of_ne_nil hb
    simp [at?, child?_file] at hs

end FileTree

namespace FileSystem

/-! ## The two views -/

/-- The content of the file under a key. -/
def fileAt? (fs : FileSystem) (k : FileKey) : Option ByteArray :=
  match fs.tree.at? k with
  | some (.file content) => some content
  | _ => none

/-- Whether a directory stands under a key. -/
def IsDirAt (fs : FileSystem) (k : FileKey) : Prop :=
  ∃ es, fs.tree.at? k = some (.dir es)

variable {fs fs' : FileSystem}

/-- A file has a content where the tree has the file. -/
theorem fileAt?_eq_some {k : FileKey} {content : ByteArray} :
    fs.fileAt? k = some content ↔ fs.tree.at? k = some (.file content) := by
  unfold fileAt?
  split
  · rename_i c h
    simp [h]
  · rename_i h
    exact ⟨by simp, fun h' => absurd h' (h content)⟩

/-- A directory is no file. -/
theorem fileAt?_of_isDirAt {k : FileKey} (h : fs.IsDirAt k) : fs.fileAt? k = none := by
  obtain ⟨es, hes⟩ := h
  rw [fileAt?, hes]

/-- What is above a directory is a directory. -/
theorem IsDirAt.of_append {a b : FileKey} (h : fs.IsDirAt (a ++ b)) : fs.IsDirAt a := by
  obtain ⟨es, hes⟩ := h
  by_cases hb : b = []
  · rw [hb, List.append_nil] at hes
    exact ⟨es, hes⟩
  · exact FileTree.exists_dir_of_at?_append hb hes

/-- Every key that leads to a directory is that of one. -/
theorem IsDirAt.of_prefix {a b : FileKey} (h : fs.IsDirAt b) (hp : a <+: b) : fs.IsDirAt a := by
  obtain ⟨c, rfl⟩ := hp
  exact h.of_append

/-- Views are equal where the trees are. -/
private theorem views_congr {k : FileKey} (h : fs'.tree.at? k = fs.tree.at? k) :
    fs'.fileAt? k = fs.fileAt? k ∧ (fs'.IsDirAt k ↔ fs.IsDirAt k) := by
  rw [fileAt?, fileAt?, IsDirAt, IsDirAt, h]
  exact ⟨rfl, Iff.rfl⟩

/-- A tree without entries that is put into a directory changes both views at its key only. -/
theorem views_put {dir : FileKey} {name : FileName} (new : FileTree) (hdir : fs.IsDirAt dir)
    (hold : ¬fs.IsDirAt (dir ++ [name])) (hnew : ∀ n, new.child? n = none)
    (htree : fs'.tree = fs.tree.put (dir ++ [name]) new) {k : FileKey} (hk : k ≠ dir ++ [name]) :
    fs'.fileAt? k = fs.fileAt? k ∧ (fs'.IsDirAt k ↔ fs.IsDirAt k) := by
  by_cases hafter : dir ++ [name] <+: k
  · -- nothing lies below the key, neither before nor after
    obtain ⟨rest, rfl⟩ := hafter
    obtain ⟨n, rest, rfl⟩ : ∃ n r, rest = n :: r := by
      apply List.exists_cons_of_ne_nil
      rintro rfl
      exact hk (List.append_nil _)
    have hbefore : fs.tree.at? (dir ++ [name] ++ n :: rest) = none := by
      cases hat : fs.tree.at? (dir ++ [name] ++ n :: rest) with
      | none => rfl
      | some s => exact absurd (FileTree.exists_dir_of_at?_append (List.cons_ne_nil _ _) hat) hold
    apply views_congr
    rw [htree, FileTree.at?_put_append, hbefore]
    simp [FileTree.at?, hnew]
  · by_cases hbelow : k <+: dir ++ [name]
    · -- what leads to the key is a directory before and after
      have hkdir : fs.IsDirAt k := by
        apply hdir.of_prefix
        rcases List.prefix_concat_iff.1 hbelow with heq | hpre
        · exact absurd heq hk
        · exact hpre
      have hkdir' : fs'.IsDirAt k := by
        rw [IsDirAt, htree]
        exact FileTree.at?_put_of_prefix _ _ hbelow hk
      exact ⟨by rw [fileAt?_of_isDirAt hkdir, fileAt?_of_isDirAt hkdir'],
        iff_of_true hkdir' hkdir⟩
    · -- the tree is the same on other branches
      apply views_congr
      rw [htree, FileTree.at?_put_of_diverges _ _ hafter hbelow]

/-! ## Directories that are made -/

/-- Whether a file system has the files of another one, and at least its directories. -/
structure Grows (fs fs' : FileSystem) : Prop where
  current : fs'.current = fs.current
  files : ∀ k, fs'.fileAt? k = fs.fileAt? k
  dirs : ∀ k, fs.IsDirAt k → fs'.IsDirAt k

theorem Grows.refl (fs : FileSystem) : Grows fs fs :=
  ⟨rfl, fun _ => rfl, fun _ h => h⟩

theorem Grows.trans {fs'' : FileSystem} (h : Grows fs fs') (h' : Grows fs' fs'') :
    Grows fs fs'' :=
  ⟨h'.current.trans h.current, fun k => (h'.files k).trans (h.files k),
    fun k hk => h'.dirs k (h.dirs k hk)⟩

/-- A way that ends at a directory has the key of one. -/
theorem isDirAt_of_treeAt {trail : Trail} {es : List (FileName × FileTree)} (hw : fs.IsWay trail)
    (h : fs.treeAt trail = .dir es) : fs.IsDirAt (keyOf trail) :=
  ⟨es, by rw [hw.at?_keyOf, h]⟩

/-- What a directory at the end of a way holds under a name stands under the longer key. -/
theorem at?_keyOf_concat {trail : Trail} {es : List (FileName × FileTree)} (hw : fs.IsWay trail)
    (h : fs.treeAt trail = .dir es) (name : FileName) :
    fs.tree.at? (keyOf trail ++ [name]) = OrderedMap.lookup name es := by
  rw [FileTree.at?_append, hw.at?_keyOf, h]
  simp only [Option.bind_some, FileTree.at?, FileTree.child?, FileTree.entries]
  cases OrderedMap.lookup name es <;> rfl

/-- The directory in which a target lies. -/
private theorem target_eq_ok {p : Path} {t : Target} (h : fs.target p = .ok t) :
    pathFault? p = none ∧ ∃ segs trail,
      segs = (p.segments.reverse.dropWhile (· = [])).reverse ∧
      fs.resolveFrom [] (fs.startKey p ++ segs.dropLast) = .ok trail ∧ t.dir = keyOf trail ∧
      fs.treeAt trail = .dir t.siblings ∧
      t.name? = segs.getLast?.filter (fun seg => seg ≠ FileName.dot && seg ≠ FileName.dotDot) ∧
      t.slashes = decide (p.units.getLast? = some slash) := by
  unfold target at h
  split at h
  · cases h
  · rename_i hfault
    dsimp only at h
    split at h
    · cases h
    · rename_i trail hresolve
      split at h
      · cases h
      · rename_i es hes
        obtain rfl := (Except.ok.inj h).symm
        exact ⟨hfault, _, trail, rfl, hresolve, rfl, hes, rfl, rfl⟩

/-- A directory that is made stands in a directory, where nothing stood. -/
private theorem makeDir_eq_ok {p : Path} (h : fs.makeDir p = .ok fs') :
    ∃ dir name, fs.IsDirAt dir ∧ fs.tree.at? (dir ++ [name]) = none ∧
      fs' = fs.putDir (dir ++ [name]) [] := by
  unfold makeDir at h
  split at h
  · cases h
  · cases h
  · rename_i dir siblings name slashes htarget
    split at h
    · cases h
    · split at h
      · cases h
      · rename_i hnew
        obtain ⟨-, segs, trail, -, hresolve, rfl, hes, -⟩ := target_eq_ok htarget
        have hway := isWay_of_resolveFrom .root hresolve
        refine ⟨keyOf trail, name, isDirAt_of_treeAt hway hes, ?_, (Except.ok.inj h).symm⟩
        rw [at?_keyOf_concat hway hes]
        simpa using hnew

/-- Making one directory changes no file. -/
private theorem grows_makeDir {p : Path} (h : fs.makeDir p = .ok fs') : Grows fs fs' := by
  obtain ⟨dir, name, hdir, hnone, rfl⟩ := makeDir_eq_ok h
  have hold : ¬fs.IsDirAt (dir ++ [name]) := by
    rintro ⟨es, hes⟩
    rw [hnone] at hes
    cases hes
  -- the new directory stands where nothing stood, so no file is lost
  have hat : (fs.putDir (dir ++ [name]) []).tree.at? (dir ++ [name]) = some (.dir []) := by
    have := FileTree.at?_put_append fs.tree (.dir []) (dir ++ [name]) []
    rwa [List.append_nil] at this
  have hviews : ∀ k, k ≠ dir ++ [name] →
      (fs.putDir (dir ++ [name]) []).fileAt? k = fs.fileAt? k ∧
        ((fs.putDir (dir ++ [name]) []).IsDirAt k ↔ fs.IsDirAt k) :=
    fun k hk => views_put (.dir []) hdir hold (fun _ => rfl) rfl hk
  refine ⟨rfl, ?_, ?_⟩
  · intro k
    by_cases hk : k = dir ++ [name]
    · rw [hk, fileAt?, fileAt?, hat, hnone]
    · exact (hviews k hk).1
  · intro k hdirk
    by_cases hk : k = dir ++ [name]
    · exact absurd (hk ▸ hdirk) hold
    · exact (hviews k hk).2.2 hdirk

theorem grows_ensureDir {p : Path} (h : fs.ensureDir p = .ok fs') : Grows fs fs' := by
  unfold ensureDir at h
  split at h
  · rename_i hmake
    obtain rfl := Except.ok.inj h
    exact grows_makeDir hmake
  · split at h
    · obtain rfl := Except.ok.inj h
      exact .refl fs
    · cases h

/-- Making directories changes no file, even if it fails half way. -/
theorem grows_ensureDirs (fs : FileSystem) (ps : List Path) : Grows fs (fs.ensureDirs ps).1 := by
  fun_induction ensureDirs fs ps with
  | case1 => exact .refl fs
  | case2 => exact .refl fs
  | case3 p above _ fs' hensure => exact grows_ensureDir hensure
  -- those above were made in part
  | case4 p above _ _ fs' e habove ih =>
    rw [habove] at ih
    exact ih
  -- those above were made, and then this one
  | case5 p above _ _ fs' habove fs'' hensure ih =>
    rw [habove] at ih
    exact ih.trans (grows_ensureDir hensure)
  | case6 p above _ _ fs' habove e _ ih =>
    rw [habove] at ih
    exact ih
  | case7 => exact .refl fs

theorem grows_createDirs (fs : FileSystem) (p : Path) : Grows fs (fs.createDirs p).1 :=
  grows_ensureDirs fs p.ancestors

/-! ## Paths that go on naming -/

/-- Whether a file system has at least the files, with whatever content, and directories of another
    one. -/
structure Keeps (fs fs' : FileSystem) : Prop where
  current : fs'.current = fs.current
  files : ∀ k, (fs.fileAt? k).isSome → (fs'.fileAt? k).isSome
  dirs : ∀ k, fs.IsDirAt k → fs'.IsDirAt k

theorem Keeps.refl (fs : FileSystem) : Keeps fs fs :=
  ⟨rfl, fun _ h => h, fun _ h => h⟩

theorem Keeps.trans {fs'' : FileSystem} (h : Keeps fs fs') (h' : Keeps fs' fs'') :
    Keeps fs fs'' :=
  ⟨h'.current.trans h.current, fun k hk => h'.files k (h.files k hk),
    fun k hk => h'.dirs k (h.dirs k hk)⟩

/-- What grows keeps all it has, and the files with their contents. -/
theorem Grows.keeps (h : Grows fs fs') : Keeps fs fs' :=
  ⟨h.current, fun k hk => by rwa [h.files k], h.dirs⟩

/-- Where something stands something goes on to stand. -/
private theorem Keeps.isSome_at? (h : Keeps fs fs') {k : FileKey} (hk : (fs.tree.at? k).isSome) :
    (fs'.tree.at? k).isSome := by
  obtain ⟨t, ht⟩ := Option.isSome_iff_exists.1 hk
  cases t with
  | file content =>
    have hfile := h.files k (by rw [fileAt?_eq_some.2 ht]; rfl)
    obtain ⟨content', hcontent'⟩ := Option.isSome_iff_exists.1 hfile
    rw [fileAt?_eq_some.1 hcontent']
    rfl
  | dir es =>
    obtain ⟨es', hes'⟩ := h.dirs k ⟨es, ht⟩
    rw [hes']
    rfl

theorem keyOf_cons (name : FileName) (t : FileTree) (trail : Trail) :
    keyOf ((name, t) :: trail) = keyOf trail ++ [name] := by
  simp [keyOf]

theorem keyOf_tail (trail : Trail) : keyOf trail.tail = (keyOf trail).dropLast := by
  cases trail with
  | nil => rfl
  | cons e trail => rw [List.tail_cons, keyOf_cons, List.dropLast_concat]

/-- A way with the key of a directory ends at one. -/
private theorem exists_treeAt_of_isDirAt {trail : Trail} (hw : fs.IsWay trail)
    (h : fs.IsDirAt (keyOf trail)) : ∃ es, fs.treeAt trail = .dir es := by
  obtain ⟨es, hes⟩ := h
  rw [hw.at?_keyOf] at hes
  exact ⟨es, Option.some.inj hes⟩

/-- A name that was looked up is not too long. -/
private theorem not_isTooLong_of_resolveSegment {trail trail' : Trail} {seg : FileName}
    (h : fs.resolveSegment trail seg = .ok trail')
    (hname : innerComponent? seg = some (.name seg)) : isTooLong seg = false := by
  obtain ⟨hv, hd, -⟩ := innerComponent?_eq_name_iff.1 hname
  unfold resolveSegment at h
  split at h
  · cases h
  · rw [if_neg (by simp [hv]), if_neg hd] at h
    split at h
    · cases h
    · rename_i hlong
      simpa using hlong

/-- A step into a directory. -/
private theorem resolveSegment_enter {trail : Trail} {es : List (FileName × FileTree)}
    {name : FileName} {t : FileTree} (hdir : fs.treeAt trail = .dir es)
    (hname : innerComponent? name = some (.name name)) (hlong : isTooLong name = false)
    (hentry : OrderedMap.lookup name es = some t) :
    fs.resolveSegment trail name = .ok ((name, t) :: trail) := by
  obtain ⟨hv, hd, -⟩ := innerComponent?_eq_name_iff.1 hname
  simp only [resolveSegment, hdir, hv, hd, hlong, hentry, Bool.false_eq_true, if_false]

/-- What a step does is done again where nothing has been lost. -/
theorem Keeps.resolveSegment (h : Keeps fs fs') {trail trail₁ trail' : Trail} {seg : FileName}
    (hw : fs.IsWay trail) (hw' : fs'.IsWay trail') (hkey : keyOf trail' = keyOf trail)
    (hstep : fs.resolveSegment trail seg = .ok trail₁) :
    ∃ trail₁', fs'.resolveSegment trail' seg = .ok trail₁' ∧ keyOf trail₁' = keyOf trail₁ := by
  obtain ⟨es, hes, hcases⟩ := resolveSegment_eq_ok hstep
  obtain ⟨es', hes'⟩ := exists_treeAt_of_isDirAt hw'
    (hkey ▸ h.dirs _ (isDirAt_of_treeAt hw hes))
  -- the step stays, goes up, or enters what still stands under the name
  rcases hcases with ⟨hv, rfl⟩ | ⟨rfl, rfl⟩ | ⟨hname, t, ht, rfl⟩
  · refine ⟨trail', ?_, hkey⟩
    simp only [FileSystem.resolveSegment, hes', hv, if_true]
  · refine ⟨trail'.tail, ?_, ?_⟩
    · rw [FileSystem.resolveSegment, hes']
      rfl
    · rw [keyOf_tail, keyOf_tail, hkey]
  · have hentry : (OrderedMap.lookup seg es').isSome := by
      rw [← at?_keyOf_concat hw' hes', hkey]
      apply h.isSome_at?
      rw [at?_keyOf_concat hw hes, ht]
      rfl
    obtain ⟨t', ht'⟩ := Option.isSome_iff_exists.1 hentry
    refine ⟨(seg, t') :: trail', ?_, by rw [keyOf_cons, keyOf_cons, hkey]⟩
    exact resolveSegment_enter hes' hname (not_isTooLong_of_resolveSegment hstep hname) ht'

/-- A way that was found is found again where nothing has been lost. -/
theorem Keeps.resolveFrom (h : Keeps fs fs') {segs : List FileName} {trail trail₁ trail' : Trail}
    (hw : fs.IsWay trail) (hw' : fs'.IsWay trail') (hkey : keyOf trail' = keyOf trail)
    (hrun : fs.resolveFrom trail segs = .ok trail₁) :
    ∃ trail₁', fs'.resolveFrom trail' segs = .ok trail₁' ∧ keyOf trail₁' = keyOf trail₁ := by
  induction segs generalizing trail trail' with
  | nil =>
    cases hrun
    exact ⟨trail', rfl, hkey⟩
  | cons seg segs ih =>
    rw [resolveFrom_cons] at hrun
    obtain ⟨trail₂, hstep, hrest⟩ := ok_of_bind hrun
    obtain ⟨trail₂', hstep', hkey₂⟩ := h.resolveSegment hw hw' hkey hstep
    obtain ⟨trail₁', hrest', hkey₁⟩ := ih (isWay_of_resolveSegment hw hstep)
      (isWay_of_resolveSegment hw' hstep') hkey₂ hrest
    refine ⟨trail₁', ?_, hkey₁⟩
    rw [resolveFrom_cons, hstep']
    exact hrest'

/-- Whether a path names what stands under a key. -/
def Names (fs : FileSystem) (p : Path) (k : FileKey) : Prop :=
  ∃ trail, fs.resolve p = .ok trail ∧ keyOf trail = k

/-- Whether the parts of a path, however long it is, lead to a key. -/
def LeadsTo (fs : FileSystem) (p : Path) (k : FileKey) : Prop :=
  ∃ trail, fs.wayTo p = .ok trail ∧ keyOf trail = k

/-- Where parts lead they go on to lead. -/
theorem LeadsTo.of_keeps {p : Path} {k : FileKey} (h : fs.LeadsTo p k) (hk : Keeps fs fs') :
    fs'.LeadsTo p k := by
  obtain ⟨trail, hway, rfl⟩ := h
  obtain ⟨trail', hway', hkey⟩ := hk.resolveFrom .root .root rfl hway
  refine ⟨trail', ?_, hkey⟩
  rw [wayTo, startKey, hk.current]
  exact hway'

/-- A path names what its parts lead to if it has no fault. -/
theorem names_iff {p : Path} {k : FileKey} :
    fs.Names p k ↔ pathFault? p = none ∧ fs.LeadsTo p k := by
  constructor
  · rintro ⟨trail, hp, hkey⟩
    obtain ⟨hfault, hway⟩ := resolve_eq_ok hp
    exact ⟨hfault, trail, hway, hkey⟩
  · rintro ⟨hfault, trail, hway, hkey⟩
    exact ⟨trail, by rw [resolve_eq, hfault, hway], hkey⟩

/-- What a path names stays under the same key. -/
theorem Names.of_keeps {p : Path} {k : FileKey} (h : fs.Names p k) (hk : Keeps fs fs') :
    fs'.Names p k := by
  obtain ⟨hfault, hleads⟩ := names_iff.1 h
  exact names_iff.2 ⟨hfault, hleads.of_keeps hk⟩

/-- Parts lead to one key at most. -/
theorem LeadsTo.unique {p : Path} {k k' : FileKey} (h : fs.LeadsTo p k) (h' : fs.LeadsTo p k') :
    k = k' := by
  obtain ⟨trail, hway, rfl⟩ := h
  obtain ⟨trail', hway', rfl⟩ := h'
  rw [hway] at hway'
  rw [Except.ok.inj hway']

theorem Names.unique {p : Path} {k k' : FileKey} (h : fs.Names p k) (h' : fs.Names p k') :
    k = k' :=
  (names_iff.1 h).2.unique (names_iff.1 h').2

/-- A file that a path names can be read. -/
theorem readBytes_of_names {p : Path} {k : FileKey} {content : ByteArray} (h : fs.Names p k)
    (hk : fs.fileAt? k = some content) : fs.readBytes p = .ok content := by
  obtain ⟨trail, hp, rfl⟩ := h
  have hway := isWay_of_resolveFrom .root (resolve_eq_ok hp).2
  have htree : fs.treeAt trail = .file content := by
    rw [fileAt?_eq_some, hway.at?_keyOf] at hk
    exact Option.some.inj hk
  simp only [readBytes, hp, htree]

/-! ## Writes -/

/-- The last part of a path that ends in no slash. -/
private theorem exists_segments_concat {p : Path} (hp : p.units ≠ [])
    (h : p.units.getLast? ≠ some slash) :
    ∃ init name, p.segments = init ++ [name] ∧ name ≠ [] := by
  obtain ⟨us⟩ := p
  obtain ⟨front, u, rfl⟩ : ∃ front u, us = front ++ [u] :=
    ⟨us.dropLast, us.getLast hp, (List.dropLast_concat_getLast hp).symm⟩
  have hu : u ≠ slash := fun heq => h (by simp [heq])
  show ∃ init name, splitUnits (front ++ [u]) = init ++ [name] ∧ name ≠ []
  clear h hp
  -- the parts are split from the front: a unit in front is in the first part, or ends one
  induction front with
  | nil => exact ⟨[], [u], by simp [splitUnits, hu], List.cons_ne_nil _ _⟩
  | cons v front ih =>
    obtain ⟨init, name, hsplit, hname⟩ := ih
    rw [List.cons_append, splitUnits, hsplit]
    split
    · exact ⟨[] :: init, name, rfl, hname⟩
    · cases init with
      | nil => exact ⟨[], v :: name, rfl, List.cons_ne_nil _ _⟩
      | cons s init => exact ⟨(v :: s) :: init, name, rfl, hname⟩

/-- Without a slash at the end, taking the empty parts off the end leaves all parts. -/
private theorem trimmed_segments {p : Path} {init : List FileName} {name : FileName}
    (hsegs : p.segments = init ++ [name]) (hname : name ≠ []) :
    (p.segments.reverse.dropWhile (· = [])).reverse = init ++ [name] := by
  -- the last part is not empty, so nothing is taken off
  rw [hsegs, List.reverse_append, List.reverse_singleton, List.singleton_append,
    List.dropWhile_cons_of_neg (by simpa using hname), List.reverse_cons, List.reverse_reverse]

/-- Where a write puts a file: its path ends in a name, and what is before the name leads to a
    directory in which no directory has that name. -/
theorem writeKey_eq_ok {p : Path} {key : FileKey} (h : fs.writeKey p = .ok key) :
    pathFault? p = none ∧ ¬fs.IsDirAt key ∧ ∃ init name trail,
      p.segments = init ++ [name] ∧ innerComponent? name = some (.name name) ∧
      isTooLong name = false ∧ fs.resolveFrom [] (fs.startKey p ++ init) = .ok trail ∧
      fs.IsDirAt (keyOf trail) ∧ key = keyOf trail ++ [name] := by
  unfold writeKey at h
  split at h
  · cases h
  · cases h
  · rename_i dir siblings name slashes htarget
    obtain ⟨hfault, segs, trail, hsegs, hresolve, rfl, hes, hname, hslashes⟩ :=
      target_eq_ok htarget
    split at h
    · cases h
    · rename_i hslash
      split at h
      · cases h
      · rename_i hlong
        split at h
        · cases h
        · rename_i hdir
          obtain rfl := (Except.ok.inj h).symm
          -- a path that is empty or ends in a slash has failed before
          have hunits : p.units ≠ [] := by
            intro hnil
            rw [pathFault?, hnil] at hfault
            cases hfault
          have hend : p.units.getLast? ≠ some slash := by
            simpa [hslash] using hslashes
          obtain ⟨init, last, hinit, hne⟩ := exists_segments_concat hunits hend
          obtain rfl : segs = init ++ [last] := hsegs.trans (trimmed_segments hinit hne)
          obtain ⟨hlast, hdots⟩ := Option.filter_eq_some_iff.1 hname.symm
          rw [List.getLast?_concat, Option.some.injEq] at hlast
          subst hlast
          rw [List.dropLast_concat] at hresolve
          have hway := isWay_of_resolveFrom .root hresolve
          refine ⟨hfault, ?_, init, last, trail, hinit, ?_, by simpa using hlong, hresolve,
            isDirAt_of_treeAt hway hes, rfl⟩
          · rintro ⟨es', hes'⟩
            rw [at?_keyOf_concat hway hes] at hes'
            rw [hes'] at hdir
            exact hdir rfl
          · simp only [ne_eq, decide_not, Bool.and_eq_true, Bool.not_eq_true',
              decide_eq_false_iff_not] at hdots
            rw [innerComponent?, if_neg (by simp [isVoid, hne, hdots.1]), if_neg hdots.2]

/-- A file that is put into a directory, where no directory stands, changes one key only. -/
theorem keeps_putFile {dir : FileKey} {name : FileName} (content : ByteArray)
    (hdir : fs.IsDirAt dir) (hold : ¬fs.IsDirAt (dir ++ [name])) :
    (fs.putFile (dir ++ [name]) content).fileAt? (dir ++ [name]) = some content ∧
      Keeps fs (fs.putFile (dir ++ [name]) content) ∧
      ∀ k, k ≠ dir ++ [name] →
        (fs.putFile (dir ++ [name]) content).fileAt? k = fs.fileAt? k := by
  have hat : (fs.putFile (dir ++ [name]) content).fileAt? (dir ++ [name]) = some content := by
    have hput := FileTree.at?_put_append fs.tree (.file content) (dir ++ [name]) []
    rw [List.append_nil] at hput
    exact fileAt?_eq_some.2 hput
  have hviews : ∀ k, k ≠ dir ++ [name] →
      (fs.putFile (dir ++ [name]) content).fileAt? k = fs.fileAt? k ∧
        ((fs.putFile (dir ++ [name]) content).IsDirAt k ↔ fs.IsDirAt k) :=
    fun k hk => views_put (.file content) hdir hold (fun _ => rfl) rfl hk
  refine ⟨hat, ⟨rfl, ?_, ?_⟩, fun k hk => (hviews k hk).1⟩
  · intro k hfile
    by_cases hk : k = dir ++ [name]
    · rw [hk, hat]
      rfl
    · rwa [(hviews k hk).1]
  · intro k hdirk
    by_cases hk : k = dir ++ [name]
    · exact absurd (hk ▸ hdirk) hold
    · exact (hviews k hk).2.2 hdirk

/-- The path of a file that is put where it can be written names it. -/
theorem names_putFile {p : Path} {key : FileKey} (h : fs.writeKey p = .ok key)
    (content : ByteArray) : (fs.putFile key content).Names p key := by
  obtain ⟨hfault, hnotDir, init, name, trail, hsegs, hname, hlong, hresolve, hdir, rfl⟩ :=
    writeKey_eq_ok h
  obtain ⟨hcontent, hkeeps, -⟩ := keeps_putFile content hdir hnotDir
  -- the way to the directory is still there, and the new file is its entry
  obtain ⟨trail', hresolve', hkeyOf⟩ := hkeeps.resolveFrom .root .root rfl hresolve
  have hway' := isWay_of_resolveFrom .root hresolve'
  obtain ⟨es', hes'⟩ := exists_treeAt_of_isDirAt hway' (hkeyOf ▸ hkeeps.dirs _ hdir)
  have hentry : OrderedMap.lookup name es' = some (.file content) := by
    rw [← at?_keyOf_concat hway' hes', hkeyOf, fileAt?_eq_some.1 hcontent]
  have hstep := resolveSegment_enter hes' hname hlong hentry
  refine names_iff.2 ⟨hfault, (name, .file content) :: trail', ?_, by rw [keyOf_cons, hkeyOf]⟩
  -- the way to the directory, and one step more
  rw [wayTo, hsegs, ← List.append_assoc, resolveFrom_append]
  show (((fs.putFile _ content).resolveFrom [] (fs.startKey p ++ init)).bind _) = _
  rw [hresolve', Except.bind, resolveFrom_cons, hstep]
  rfl

/-- A write changes the content under one key, which its path names from then on. -/
theorem write_eq_ok {p : Path} {content : ByteArray} (h : fs.write p content = .ok fs') :
    ∃ key, fs'.Names p key ∧ fs'.fileAt? key = some content ∧ Keeps fs fs' ∧
      ∀ k, k ≠ key → fs'.fileAt? k = fs.fileAt? k := by
  unfold write at h
  split at h
  · cases h
  · rename_i key hkey
    obtain rfl := (Except.ok.inj h).symm
    obtain ⟨-, hnotDir, init, name, trail, -, -, -, -, hdir, rfl⟩ := writeKey_eq_ok hkey
    obtain ⟨hcontent, hkeeps, hframe⟩ := keeps_putFile content hdir hnotDir
    exact ⟨keyOf trail ++ [name], names_putFile hkey content, hcontent, hkeeps, hframe⟩

end FileSystem

end IconCompiler
