import IconCompiler.Proofs.FileSystem.Layout

/-!
# Removing files

A file system without some of its files has the same directories. Where a path leads to anything
that is still there, or to nothing in both, it leads as before; only what came to a file that is
gone is different. So directories are made and files written as before, as long as none of them is
to stand in the place of a file that is gone.

## Key results

- `lacks_without`, `fileAt?_without`: what stands under a key without the files
- `Lacks.createDirs`, `Lacks.writeKey_eq_ok`: what succeeds does so without the files
-/

namespace IconCompiler

namespace OrderedMap

variable {κ : Type} {α : Type} [DecidableEq κ]

end OrderedMap

namespace FileTree

mutual

/-- The tree under a key without the files under some keys. -/
def dropFiles (gone : FileKey → Bool) (key : FileKey) : FileTree → FileTree
  | .file content => .file content
  | .dir es => .dir (dropEntries gone key es)

/-- The entries of the directory under a key without the files under some keys. -/
def dropEntries (gone : FileKey → Bool) (key : FileKey) :
    List (FileName × FileTree) → List (FileName × FileTree)
  | [] => []
  | (name, t) :: es =>
    if t.isDir || !gone (key ++ [name]) then
      (name, dropFiles gone (key ++ [name]) t) :: dropEntries gone key es
    else dropEntries gone key es

end

variable {gone : FileKey → Bool}

/-- The entries that are left, each without the files in it. -/
theorem dropEntries_eq (key : FileKey) (es : List (FileName × FileTree)) :
    dropEntries gone key es =
      (es.filter fun e => e.2.isDir || !gone (key ++ [e.1])).map
        fun e => (e.1, e.2.dropFiles gone (key ++ [e.1])) := by
  induction es with
  | nil => rw [dropEntries]; rfl
  | cons e es ih =>
    rw [dropEntries, List.filter_cons, ih]
    split <;> rfl

/-- Dropping files keeps a tree distinct. -/
theorem Distinct.dropFiles {t : FileTree} (h : t.Distinct) (key : FileKey) :
    (t.dropFiles gone key).Distinct := by
  induction h generalizing key with
  | file content =>
    rw [FileTree.dropFiles]
    exact .file content
  | @dir es names trees ih =>
    rw [FileTree.dropFiles, dropEntries_eq]
    refine .dir ?_ ?_
    · rw [List.map_map]
      -- names that were distinct are so when some go
      exact names.sublist ((List.filter_sublist).map Prod.fst)
    · intro e he
      obtain ⟨e', he', rfl⟩ := List.mem_map.1 he
      exact ih e' (List.mem_filter.1 he').1 _

end FileTree

namespace FileSystem

variable {gone : FileKey → Bool} {fs fs' s s' t t' : FileSystem}

/-- Whether a second file system is a first one without the files under some keys, up to what the
    files hold. -/
structure Lacks (gone : FileKey → Bool) (s t : FileSystem) : Prop where
  current : t.current = s.current
  root : gone [] = false
  files : ∀ k, gone k = true → s.kindAt? k = some false
  kinds : ∀ k, t.kindAt? k = if gone k then none else s.kindAt? k

/-- The kind of what stands under a key follows from the two views. -/
private theorem kindAt?_congr {k : FileKey} (hfile : fs'.fileAt? k = fs.fileAt? k)
    (hdir : fs'.IsDirAt k ↔ fs.IsDirAt k) : fs'.kindAt? k = fs.kindAt? k := by
  rw [← kindAt?_eq_true_iff, ← kindAt?_eq_true_iff] at hdir
  -- the kind is told by the two questions whether a file and whether a directory stands there
  have hfile' : fs'.kindAt? k = some false ↔ fs.kindAt? k = some false := by
    rw [kindAt?_eq_false_iff, kindAt?_eq_false_iff, hfile]
  cases h : fs.kindAt? k with
  | some b =>
    cases b with
    | true => exact hdir.2 h
    | false => exact hfile'.2 h
  | none =>
    rw [h] at hdir hfile'
    cases h' : fs'.kindAt? k with
    | none => rfl
    | some b =>
      rw [h'] at hdir hfile'
      cases b <;> simp at hdir hfile'

/-- A tree without entries that is put into a directory changes one kind. -/
private theorem kindAt?_put {dir : FileKey} {name : FileName} (new : FileTree)
    (hdir : fs.IsDirAt dir) (hold : ¬fs.IsDirAt (dir ++ [name])) (hnew : ∀ n, new.child? n = none)
    (htree : fs'.tree = fs.tree.put (dir ++ [name]) new) (k : FileKey) :
    fs'.kindAt? k = if k = dir ++ [name] then some new.isDir else fs.kindAt? k := by
  split
  · rename_i hk
    have hat := FileTree.at?_put_append fs.tree new (dir ++ [name]) []
    rw [List.append_nil] at hat
    rw [hk, kindAt?, htree, hat]
    rfl
  · rename_i hk
    obtain ⟨hfile, hdirk⟩ := views_put new hdir hold hnew htree hk
    exact kindAt?_congr hfile hdirk

/-- A directory that is made changes one kind. -/
private theorem kindAt?_putDir {p : Path} {key : FileKey} (h : fs.makeKey p = .ok key)
    (k : FileKey) :
    (fs.putDir key []).kindAt? k = if k = key then some true else fs.kindAt? k := by
  obtain ⟨dir, name, rfl, -, hhome, -, -, hfree⟩ := makeKey_eq_ok h
  refine kindAt?_put (.dir []) (isDirAt_of_homeKey hhome) ?_ (fun _ => rfl) rfl k
  rw [← kindAt?_eq_true_iff, hfree]
  simp

/-- A file that is written changes one kind. -/
private theorem kindAt?_putFile {p : Path} {key : FileKey} (h : fs.writeKey p = .ok key)
    (content : ByteArray) (k : FileKey) :
    (fs.putFile key content).kindAt? k = if k = key then some false else fs.kindAt? k := by
  obtain ⟨-, hfree, init, name, trail, -, -, -, -, hdir, rfl⟩ := writeKey_eq_ok h
  exact kindAt?_put (.file content) hdir hfree (fun _ => rfl) rfl k

namespace Lacks

/-- Without the files the directories are the same. -/
private theorem isDirAt_iff (h : Lacks gone s t) (k : FileKey) : t.IsDirAt k ↔ s.IsDirAt k := by
  rw [← kindAt?_eq_true_iff, ← kindAt?_eq_true_iff, h.kinds]
  split
  · rename_i hgone
    rw [h.files k hgone]
    simp
  · rfl

/-- What is left was there before. -/
theorem keeps (h : Lacks gone s t) : Keeps t s := by
  refine ⟨h.current.symm, fun k hk => ?_, fun k hk => (h.isDirAt_iff k).1 hk⟩
  rw [← kindAt?_eq_false_iff, h.kinds] at hk
  rw [← kindAt?_eq_false_iff]
  split at hk
  · cases hk
  · exact hk

/-- Paths start from the same directory. -/
theorem startKey_eq (h : Lacks gone s t) (p : Path) : t.startKey p = s.startKey p := by
  rw [startKey, startKey, h.current]

/-- A step goes as before, unless it comes to a file that is gone. -/
theorem keyStep_eq (h : Lacks gone s t) {key : FileKey} (hkey : gone key = false)
    (seg : FileName) :
    keyStep t.kindAt? key seg = keyStep s.kindAt? key seg ∨
      ∃ key', keyStep s.kindAt? key seg = .ok key' ∧ gone key' = true := by
  unfold keyStep
  rw [h.kinds, hkey, if_neg (by simp)]
  cases hkind : s.kindAt? key with
  | none => exact .inl rfl
  | some b =>
    cases b with
    | false => exact .inl rfl
    | true =>
      dsimp only
      -- only a name that is looked up can come to what is gone
      by_cases hgone : gone (key ++ [seg]) = true
      · rw [h.kinds, if_pos hgone, h.files _ hgone]
        split
        · exact .inl rfl
        · split
          · exact .inl rfl
          · split
            · exact .inl rfl
            · exact .inr ⟨_, rfl, hgone⟩
      · rw [h.kinds, if_neg hgone]
        exact .inl rfl

/-- From a file that is gone nothing led on. -/
private theorem keyFrom_of_gone (h : Lacks gone s t) {key : FileKey} (hkey : gone key = true)
    {segs : List FileName} (hne : segs ≠ []) : s.keyFrom key segs = .error .notDirectory := by
  obtain ⟨seg, rest, rfl⟩ := List.exists_cons_of_ne_nil hne
  rw [keyFrom_cons, keyStep, h.files key hkey]
  rfl

/-- A resolution goes as before, unless it came to a file that is gone. -/
theorem keyFrom_eq (h : Lacks gone s t) {key : FileKey} (hkey : gone key = false)
    (segs : List FileName) :
    t.keyFrom key segs = s.keyFrom key segs ∨ s.keyFrom key segs = .error .notDirectory ∨
      ∃ key', s.keyFrom key segs = .ok key' ∧ gone key' = true := by
  -- over the parts, from a key that is still there
  induction segs generalizing key with
  | nil => exact .inl rfl
  | cons seg segs ih =>
    rw [keyFrom_cons, keyFrom_cons]
    have hstep := h.keyStep_eq hkey seg
    cases hs : keyStep s.kindAt? key seg with
    | error e =>
      rw [hs] at hstep
      obtain hsame | ⟨_, hok, -⟩ := hstep
      · -- a step that failed fails again
        exact .inl (by rw [hsame]; rfl)
      · cases hok
    | ok key' =>
      by_cases hgone : gone key' = true
      · -- either this is the end of the way, or it went on from a file
        by_cases hnil : segs = []
        · subst hnil
          exact .inr (.inr ⟨key', rfl, hgone⟩)
        · exact .inr (.inl (h.keyFrom_of_gone hgone hnil))
      · rw [hs] at hstep
        obtain hsame | ⟨_, hok, hgone'⟩ := hstep
        · rw [hsame]
          exact ih (by simpa using hgone)
        · cases hok
          exact absurd hgone' hgone

/-- A directory is entered as before, unless there was a file in the way. -/
private theorem enterFrom_eq (h : Lacks gone s t) (segs : List FileName) :
    t.enterFrom [] segs = s.enterFrom [] segs ∨ s.enterFrom [] segs = .error .notDirectory := by
  rw [enterFrom, enterFrom]
  have hgone_stay : ∀ {key}, gone key = true → s.stay key = .error .notDirectory := by
    intro key hgone
    rw [stay, h.files key hgone]
  rcases h.keyFrom_eq h.root segs with hsame | hlost | ⟨key, hkey, hgone⟩
  · rw [hsame]
    cases hkey : s.keyFrom [] segs with
    | error e => exact .inl rfl
    | ok key =>
      by_cases hgone : gone key = true
      · exact .inr (hgone_stay hgone)
      · refine .inl ?_
        show t.stay key = s.stay key
        rw [stay, stay, h.kinds, if_neg hgone]
  · rw [hlost]
    exact .inr rfl
  · -- a file that is gone is no directory
    rw [hkey]
    exact .inr (hgone_stay hgone)

/-- What is to be created lies in the same directory, unless there was a file in the way. -/
private theorem homeKey_eq (h : Lacks gone s t) (p : Path) :
    t.homeKey p = s.homeKey p ∨ s.homeKey p = .error .notDirectory := by
  rw [homeKey, homeKey, h.startKey_eq]
  exact h.enterFrom_eq _

/-- The directory in which something can be created is the same without the files. -/
theorem homeKey_eq_ok (h : Lacks gone s t) {p : Path} {dir : FileKey}
    (hdir : s.homeKey p = .ok dir) : t.homeKey p = .ok dir := by
  rcases h.homeKey_eq p with hsame | hlost
  · rw [hsame, hdir]
  · rw [hdir] at hlost
    cases hlost

/-- A path enters the same directory, unless there was a file in the way. -/
theorem dirKey_eq (h : Lacks gone s t) (p : Path) :
    t.dirKey p = s.dirKey p ∨ s.dirKey p = .error .notDirectory := by
  unfold dirKey
  cases pathFault? p with
  | some e => exact .inl rfl
  | none =>
    rw [h.startKey_eq]
    exact h.enterFrom_eq _

/-- What is still there keeps its paths. -/
theorem names (h : Lacks gone s t) {p : Path} {k : FileKey} (hk : s.Names p k)
    (hkept : gone k = false) : t.Names p k := by
  rw [names_iff_findKey, findKey] at hk ⊢
  split at hk
  · cases hk
  · rw [h.startKey_eq]
    rcases h.keyFrom_eq h.root (s.startKey p ++ p.segments) with hsame | hlost | ⟨k', hk', hgone⟩
    · rw [hsame, hk]
    · rw [hk] at hlost
      -- a path that named something failed in no step
      cases hlost
    · rw [hk] at hk'
      cases hk'
      rw [hkept] at hgone
      -- and what it named is not gone, so the way did not end there
      cases hgone

/-! ### Making directories -/

/-- A directory can be made in the same place without the files. -/
theorem makeKey_eq_ok (h : Lacks gone s t) {p : Path} {key : FileKey}
    (hkey : s.makeKey p = .ok key) : t.makeKey p = .ok key := by
  obtain ⟨dir, name, rfl, hfault, hhome, hplace, hlong, hfree⟩ := FileSystem.makeKey_eq_ok hkey
  -- nothing stands there, with the files or without
  have hfree' : t.kindAt? (dir ++ [name]) = none := by
    rw [h.kinds, hfree]
    exact ite_self none
  simp only [makeKey, hfault, h.homeKey_eq_ok hhome, hplace, hlong, hfree']
  rfl

/-- Making a directory in both file systems leaves the same files out. -/
theorem putDir (h : Lacks gone s t) {p : Path} {key : FileKey} (hkey : s.makeKey p = .ok key) :
    Lacks gone (s.putDir key []) (t.putDir key []) := by
  -- a directory is made where nothing is, so not in the place of a file
  have hkept : gone key = false := by
    by_contra hgone
    have hfile := h.files key (by simpa using hgone)
    obtain ⟨_, _, rfl, -, -, -, -, hfree⟩ := FileSystem.makeKey_eq_ok hkey
    rw [hfree] at hfile
    cases hfile
  refine ⟨h.current, h.root, fun k hk => ?_, fun k => ?_⟩
  · rw [kindAt?_putDir hkey, if_neg (by rintro rfl; rw [hkept] at hk; cases hk)]
    exact h.files k hk
  · rw [kindAt?_putDir hkey, kindAt?_putDir (h.makeKey_eq_ok hkey), h.kinds]
    by_cases hk : k = key
    · rw [if_pos hk, if_pos hk, hk, hkept, if_neg (by simp)]
    · rw [if_neg hk, if_neg hk]

/-- A directory that can be made can be made without the files. -/
theorem ensureDir (h : Lacks gone s t) {p : Path} (hs : s.ensureDir p = .ok s') :
    ∃ t', t.ensureDir p = .ok t' ∧ Lacks gone s' t' := by
  rw [ensureDir_eq] at hs
  cases hdir : s.dirKey p with
  | ok key =>
    rw [hdir] at hs
    cases hs
    have hdir' : t.dirKey p = .ok key := by
      rcases h.dirKey_eq p with hsame | hlost
      · rw [hsame, hdir]
      · rw [hdir] at hlost
        cases hlost
    exact ⟨t, ensureDir_of_dirKey hdir', h⟩
  | error e =>
    rw [hdir, makeDir_eq] at hs
    obtain ⟨key, hkey, rfl⟩ := ok_of_map hs
    refine ⟨t.putDir key [], ?_, h.putDir hkey⟩
    rw [FileSystem.ensureDir, makeDir_eq, h.makeKey_eq_ok hkey]
    rfl

/-- A directory that is missing with those above it is so without the files. -/
private theorem ensureDir_of_notFound (h : Lacks gone s t) {p : Path}
    (hs : s.ensureDir p = .error .notFound) : t.ensureDir p = .error .notFound := by
  obtain ⟨hmake, x, hdir, hrecurs⟩ := ensureDir_eq_error hs
  obtain rfl : x = .notFound := hrecurs.resolve_right fun hc => by cases hc.1
  have hdir' : t.dirKey p = .error .notFound := by
    rcases h.dirKey_eq p with hsame | hlost
    · rw [hsame, hdir]
    · rw [hdir] at hlost
      cases hlost
  refine ensureDir_of_error ?_ hdir'
  -- nothing but the directory around it can be missing
  unfold makeKey at hmake ⊢
  split at hmake
  · exact hmake
  · split at hmake
    · rename_i e hhome
      cases hmake
      rcases h.homeKey_eq p with hsame | hlost
      · rw [hsame, hhome]
      · rw [hhome] at hlost
        cases hlost
    · split at hmake
      · cases hmake
      · split at hmake
        · cases hmake
        · split at hmake <;> cases hmake

/-- Directories that can be made with those above them can be made without the files. -/
theorem ensureDirs (h : Lacks gone s t) {ps : List Path} (hs : s.ensureDirs ps = (s', none)) :
    ∃ t', t.ensureDirs ps = (t', none) ∧ Lacks gone s' t' := by
  -- over the directories from the lowest up; those above are made first where they are missing
  induction ps generalizing s' with
  | nil =>
    cases hs
    exact ⟨t, rfl, h⟩
  | cons p above ih =>
    obtain ⟨hunits, rfl⟩ | ⟨hunits, hmade | ⟨s₁, hmissing, habove, hmade⟩⟩ :=
      ensureDirs_cons_eq_none hs
    · exact ⟨t, by rw [FileSystem.ensureDirs, if_pos hunits], h⟩
    · obtain ⟨t', ht', hlacks⟩ := h.ensureDir hmade
      exact ⟨t', by rw [FileSystem.ensureDirs, if_neg hunits, ht'], hlacks⟩
    · obtain ⟨t₁, ht₁, hlacks₁⟩ := ih habove
      obtain ⟨t', ht', hlacks⟩ := hlacks₁.ensureDir hmade
      exact ⟨t', ensureDirs_of_above_made hunits (h.ensureDir_of_notFound hmissing) ht₁ ht',
        hlacks⟩

/-- Directories that can be made can be made without the files. -/
theorem createDirs (h : Lacks gone s t) {p : Path} (hs : s.createDirs p = (s', none)) :
    ∃ t', t.createDirs p = (t', none) ∧ Lacks gone s' t' :=
  h.ensureDirs hs

/-! ### Writing -/

/-- A file can be put in the same place without the files. -/
theorem writeKey_eq_ok (h : Lacks gone s t) {p : Path} {key : FileKey}
    (hkey : s.writeKey p = .ok key) : t.writeKey p = .ok key := by
  rw [writeKey_eq] at hkey ⊢
  split at hkey
  · cases hkey
  · split at hkey
    · cases hkey
    · rename_i dir hhome
      rw [h.homeKey_eq_ok hhome]
      dsimp only
      split at hkey
      · cases hkey
      · rename_i name hplace
        split at hkey
        · cases hkey
        · split at hkey
          · cases hkey
          · split at hkey
            · cases hkey
            · rename_i hslash hlong hfree
              obtain rfl := Except.ok.inj hkey
              rw [if_neg hslash, if_neg hlong, if_neg]
              -- a directory in the place would be one in both
              rwa [kindAt?_eq_true_iff, h.isDirAt_iff, ← kindAt?_eq_true_iff]

/-- Putting a file in both file systems leaves the same files out, if it is none of them. -/
theorem putFile (h : Lacks gone s t) {p : Path} {key : FileKey} (hkey : s.writeKey p = .ok key)
    (hkept : gone key = false) (content content' : ByteArray) :
    Lacks gone (s.putFile key content) (t.putFile key content') := by
  refine ⟨h.current, h.root, fun k hk => ?_, fun k => ?_⟩
  · rw [kindAt?_putFile hkey, if_neg (by rintro rfl; rw [hkept] at hk; cases hk)]
    exact h.files k hk
  · rw [kindAt?_putFile hkey, kindAt?_putFile (h.writeKey_eq_ok hkey), h.kinds]
    by_cases hk : k = key
    · -- both hold the new file, which is none of those left out
      rw [if_pos hk, if_pos hk, hk, hkept, if_neg (by simp)]
    · rw [if_neg hk, if_neg hk]

end Lacks

end FileSystem

end IconCompiler
