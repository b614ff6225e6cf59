import IconCompiler.Proofs.FileSystem.Directories
import IconCompiler.Proofs.OrderedMap

/-!
# Layouts

The layout of a file tree is the tree with nothing in its files: all names, in their order, and
which of them are directories. Replacing a file that exists keeps the layout, and a tree is its
layout with the contents of its files.

## Key results

- `FileTree.eq_of_bare_eq`: a tree is its layout with the contents of its files
- `SameLayout.putFile`: replacing a file keeps the layout
- `Between.createDirs`, `Between.write`: what succeeded succeeds again
- `Between.readText_eq`: a source reads the same in between
-/

namespace IconCompiler

namespace OrderedMap

variable {κ : Type} {α β : Type} [DecidableEq κ]

/-- A lookup among changed values gives the changed value. -/
private theorem lookup_map (k : κ) (f : α → β) (es : List (κ × α)) :
    lookup k (es.map fun e => (e.1, f e.2)) = (lookup k es).map f := by
  induction es with
  | nil => rfl
  | cons e es ih =>
    rw [List.map_cons, lookup, lookup, ih]
    split <;> rfl

/-- Values are changed before or after a put alike. -/
private theorem map_put (k : κ) (a : α) (f : α → β) (es : List (κ × α)) :
    (put k a es).map (fun e => (e.1, f e.2)) = put k (f a) (es.map fun e => (e.1, f e.2)) := by
  induction es with
  | nil => rfl
  | cons e es ih =>
    rw [List.map_cons, put, put]
    split
    · rfl
    · rw [List.map_cons, ih]

/-- Putting what is there changes nothing. -/
private theorem put_of_lookup {k : κ} {a : α} {es : List (κ × α)} (h : lookup k es = some a) :
    put k a es = es := by
  induction es with
  | nil => cases h
  | cons e es ih =>
    rw [lookup] at h
    rw [put]
    split at h
    · rename_i hk
      obtain rfl := Option.some.inj h
      -- the value that is put is the one found
      rw [if_pos hk, ← hk]
    · rename_i hk
      rw [if_neg hk, ih h]

end OrderedMap

namespace FileTree

mutual

/-- The tree with nothing in its files. -/
def bare : FileTree → FileTree
  | .file _ => .file ByteArray.empty
  | .dir es => .dir (bareEntries es)

/-- The entries of a directory with nothing in the files. -/
def bareEntries : List (FileName × FileTree) → List (FileName × FileTree)
  | [] => []
  | (name, t) :: es => (name, bare t) :: bareEntries es

end

/-- The entries of a layout are those of the tree, each with its own layout. -/
private theorem bareEntries_eq (es : List (FileName × FileTree)) :
    bareEntries es = es.map fun e => (e.1, e.2.bare) := by
  induction es with
  | nil => rw [bareEntries]; rfl
  | cons e es ih => rw [bareEntries, ih]; rfl

/-- A layout has the entries of the tree, each with its own layout. -/
private theorem entries_bare (t : FileTree) :
    t.bare.entries = t.entries.map fun e => (e.1, e.2.bare) := by
  cases t with
  | file content => rw [bare]; rfl
  | dir es => rw [bare, entries, bareEntries_eq]; rfl

/-- A layout holds under a name the layout of what the tree holds there. -/
private theorem child?_bare (t : FileTree) (name : FileName) :
    t.bare.child? name = (t.child? name).map bare := by
  rw [child?, entries_bare, OrderedMap.lookup_map]
  rfl

/-- A layout has under a key the layout of what the tree has there. -/
private theorem at?_bare (t : FileTree) (k : FileKey) : t.bare.at? k = (t.at? k).map bare := by
  -- along the key; what stands under its first name has its own layout
  induction k generalizing t with
  | nil => rfl
  | cons name k ih =>
    rw [at?, at?, child?_bare]
    cases t.child? name with
    | none => rfl
    | some s => exact ih s

/-- A layout has the directories of the tree. -/
private theorem isDir_bare (t : FileTree) : t.bare.isDir = t.isDir := by
  cases t <;> rw [bare] <;> rfl

/-- Putting something in the place of what has the same layout keeps the layout. -/
private theorem bare_put {t s new : FileTree} {key : FileKey} (h : t.at? key = some s)
    (hnew : new.bare = s.bare) : (t.put key new).bare = t.bare := by
  -- along the key; only the entry under its first name is put anew, and its layout is the old one
  induction key generalizing t with
  | nil =>
    cases h
    exact hnew
  | cons name key ih =>
    rw [at?] at h
    split at h
    · rename_i u hu
      cases t with
      | file content => cases hu
      | dir es =>
        rw [put, hu, Option.getD_some, bare, bare, bareEntries_eq, bareEntries_eq,
          OrderedMap.map_put, ih h, OrderedMap.put_of_lookup]
        · rfl
        · rw [OrderedMap.lookup_map]
          exact congrArg (Option.map bare) hu
    · cases h

/-- A tree is its layout with the contents of its files. -/
theorem eq_of_bare_eq {t t' : FileTree} (hd : t.Distinct) (hbare : t.bare = t'.bare)
    (hfiles : ∀ k content, t.at? k = some (.file content) ↔ t'.at? k = some (.file content)) :
    t = t' := by
  induction hd generalizing t' with
  | file content =>
    -- the empty key asks for the file itself
    exact (Option.some.inj ((hfiles [] content).1 rfl)).symm
  | @dir es names trees ih =>
    cases t' with
    | file content => simp [bare] at hbare
    | dir es' =>
      rw [bare, bare, bareEntries_eq, bareEntries_eq, dir.injEq] at hbare
      -- directories with one layout have the same names in the same order
      have hnames : es.map Prod.fst = es'.map Prod.fst := by
        have := congrArg (List.map Prod.fst) hbare
        simpa [List.map_map, Function.comp_def] using this
      have hlen : es.length = es'.length := by simpa using congrArg List.length hnames
      congr 1
      refine List.ext_getElem hlen fun i hi hi' => ?_
      have hentry : (es[i].1, es[i].2.bare) = (es'[i].1, es'[i].2.bare) := by
        simpa [hi, hi'] using congrArg (·[i]?) hbare
      obtain ⟨hname, htree⟩ := Prod.mk.inj hentry
      refine Prod.ext hname (ih _ (List.getElem_mem hi) htree fun k content => ?_)
      -- the entries are what the two directories hold under the name
      have hat : ∀ {ds : List (FileName × FileTree)} {e : FileName × FileTree},
          (ds.map Prod.fst).Nodup → e ∈ ds → (dir ds).at? (e.1 :: k) = e.2.at? k := by
        intro ds e hnodup he
        rw [at?, child?, entries, OrderedMap.lookup_of_mem hnodup he]
      rw [← hat names (List.getElem_mem hi), ← hat (hnames ▸ names) (List.getElem_mem hi'),
        ← hname]
      exact hfiles _ content

end FileTree

namespace FileSystem

variable {fs fs' t : FileSystem}

/-- Whether two file systems differ in nothing but what their files hold. -/
structure SameLayout (fs fs' : FileSystem) : Prop where
  current : fs'.current = fs.current
  bare : fs'.tree.bare = fs.tree.bare

theorem SameLayout.refl (fs : FileSystem) : SameLayout fs fs := ⟨rfl, rfl⟩

private theorem SameLayout.sameKinds (h : SameLayout fs fs') : SameKinds fs fs' := by
  refine ⟨h.current, funext fun k => ?_⟩
  have hat := congrArg (·.at? k) h.bare
  simp only [FileTree.at?_bare] at hat
  have hkinds := congrArg (Option.map FileTree.isDir) hat
  -- a layout keeps every kind
  simp only [Option.map_map, Function.comp_def, FileTree.isDir_bare] at hkinds
  exact hkinds

/-- Replacing a file keeps the layout. -/
theorem SameLayout.putFile (h : SameLayout fs fs') {key : FileKey} (content : ByteArray)
    (hfile : (fs'.fileAt? key).isSome = true) : SameLayout fs (fs'.putFile key content) := by
  obtain ⟨old, hold⟩ := Option.isSome_iff_exists.1 hfile
  refine ⟨h.current, ?_⟩
  rw [← h.bare]
  exact FileTree.bare_put (fileAt?_eq_some.1 hold) (by rw [FileTree.bare, FileTree.bare])

/-- File systems with one layout are equal if their files hold the same. -/
theorem SameLayout.eq (h : SameLayout fs fs') (hfiles : ∀ k, fs'.fileAt? k = fs.fileAt? k) :
    fs' = fs := by
  have htree : fs'.tree = fs.tree := by
    apply FileTree.eq_of_bare_eq fs'.distinct h.bare
    intro k content
    rw [← fileAt?_eq_some, ← fileAt?_eq_some, hfiles]
  have hcurrent := h.current
  -- a file system is its tree and its current directory
  cases fs
  cases fs'
  simp only at htree hcurrent
  subst htree hcurrent
  rfl

/-! ## Doing it again -/

/-- A file that is put where it can be written is the only one that changes. -/
theorem fileAt?_putFile {p : Path} {key : FileKey} (h : fs.writeKey p = .ok key)
    (content : ByteArray) (k : FileKey) :
    (fs.putFile key content).fileAt? k = if k = key then some content else fs.fileAt? k := by
  obtain ⟨-, hfree, init, name, trail, -, -, -, -, hdir, rfl⟩ := writeKey_eq_ok h
  obtain ⟨hnew, -, hframe⟩ := keeps_putFile content hdir hfree
  split
  · rename_i hk
    rw [hk, hnew]
  · rename_i hk
    exact hframe k hk

/-- Nothing is lost when a file is put where it can be written. -/
theorem keeps_putFile_of_writeKey {p : Path} {key : FileKey} (h : fs.writeKey p = .ok key)
    (content : ByteArray) : Keeps fs (fs.putFile key content) := by
  obtain ⟨-, hfree, init, name, trail, -, -, -, -, hdir, rfl⟩ := writeKey_eq_ok h
  exact (keeps_putFile content hdir hfree).2.1

/-- Where a file can be put it can be replaced. -/
theorem Keeps.writeKey_eq_ok (h : Keeps fs t) {p : Path} {key : FileKey}
    (hkey : fs.writeKey p = .ok key) (hfile : (t.fileAt? key).isSome = true) :
    t.writeKey p = .ok key := by
  -- a file in the place is no directory, which is all that the last check asks
  have hkind := kindAt?_eq_false_iff.2 hfile
  rw [writeKey_eq] at hkey ⊢
  split at hkey
  · cases hkey
  · split at hkey
    · cases hkey
    · rename_i dir hhome
      rw [h.homeKey_eq_ok hhome]
      dsimp only
      split at hkey
      · cases hkey
      · split at hkey
        · cases hkey
        · rename_i hslash
          split at hkey
          · cases hkey
          · rename_i hlong
            split at hkey
            · cases hkey
            · obtain rfl := Except.ok.inj hkey
              -- the checks of the name do not look at the tree
              rw [if_neg hslash, if_neg hlong, hkind]
              rfl

/-- Whether a file system has the layout that a run leaves, and every file holds what it holds at
    the end of the run or at some point before. -/
structure Between (s f t : FileSystem) : Prop where
  layout : SameLayout f t
  files : ∀ k, t.fileAt? k = f.fileAt? k ∨ t.fileAt? k = s.fileAt? k

/-- Reading finds nothing exactly where a path names nothing. -/
private theorem readText_eq_notFound_iff {p : Path} :
    fs.readText p = .error .notFound ↔ fs.findKey p = .error .notFound := by
  rw [readText, readBytes_eq]
  cases fs.findKey p with
  | error e => simp
  | ok k =>
    dsimp only
    cases fs.fileAt? k with
    | none => simp
    | some content =>
      dsimp only
      cases String.fromUTF8? content <;> simp

namespace Between

variable {s s' f : FileSystem}

/-- The end of a run lies between any point of it and the end. -/
theorem refl (s f : FileSystem) : Between s f f :=
  ⟨.refl f, fun _ => .inl rfl⟩

/-- At the end of the run, nothing is left to differ. -/
theorem eq (h : Between f f t) : t = f :=
  h.layout.eq fun k => (h.files k).elim id id

/-- Directories that the run makes leave the second one where it stands. -/
private theorem of_grows (h : Between s f t) (hgrows : Grows s s') : Between s' f t :=
  ⟨h.layout, fun k => by rw [hgrows.files k]; exact h.files k⟩

/-- Directories that were made are there already. -/
theorem createDirs (h : Between s f t) {p : Path} (hmade : s.createDirs p = (s', none))
    (hkeeps : Keeps s' f) : t.createDirs p = (t, none) ∧ Between s' f t := by
  -- the layout at the end has all directories that were made in between
  refine ⟨createDirs_again hmade (hkeeps.trans h.layout.sameKinds.keeps), h.of_grows ?_⟩
  have hgrows := grows_createDirs s p
  rwa [hmade] at hgrows

/-- If the run ended where directories could not be made, they cannot be made again. -/
theorem createDirs_error (h : Between s f t) {p : Path} {e : IoFault}
    (hfail : s.createDirs p = (f, some e)) :
    t = f ∧ ∃ e', f.createDirs p = (f, some e') ∧ Recurs e e' := by
  have hgrows := grows_createDirs s p
  rw [hfail] at hgrows
  exact ⟨(h.of_grows hgrows).eq, createDirs_fails_again hfail⟩

/-- A write that succeeded succeeds again, and replaces what is there. -/
theorem write (h : Between s f t) {p : Path} {content : ByteArray}
    (hwrite : s.write p content = .ok s') (hkeeps : Keeps s' f) :
    ∃ t', t.write p content = .ok t' ∧ Between s' f t' := by
  unfold FileSystem.write at hwrite
  split at hwrite
  · cases hwrite
  · rename_i key hkey
    obtain rfl := Except.ok.inj hwrite
    have hnew : ((s.putFile key content).fileAt? key).isSome = true := by
      rw [fileAt?_putFile hkey, if_pos rfl]
      rfl
    -- the file that was written is there until the end, and so in the layout
    have hthere := h.layout.sameKinds.keeps.files key (hkeeps.files key hnew)
    have hkeeps' : Keeps s t :=
      ((keeps_putFile_of_writeKey hkey content).trans hkeeps).trans h.layout.sameKinds.keeps
    have hagain := hkeeps'.writeKey_eq_ok hkey hthere
    refine ⟨t.putFile key content, by rw [FileSystem.write, hagain],
      h.layout.putFile content hthere, fun k => ?_⟩
    rw [fileAt?_putFile hagain, fileAt?_putFile hkey]
    split
    · exact .inr rfl
    · exact h.files k

/-- A write that ended the run fails again. -/
theorem write_error (h : Between s s t) {p : Path} {content : ByteArray} {e : IoFault}
    (hfail : s.write p content = .error e) : t.write p content = .error e := by
  rw [h.eq, hfail]

/-- A path whose file is not written to in between reads the same. -/
theorem readText_eq (h : Between s f t) (hkeeps : Keeps s f) {p : Path}
    (hmissing : s.readText p = .error .notFound → f.readText p = .error .notFound)
    (hsame : ∀ k, s.Names p k → f.fileAt? k = s.fileAt? k) : t.readText p = s.readText p := by
  have hfind := h.layout.sameKinds.findKey_eq p
  have hbytes : s.findKey p ≠ .error .notFound → t.readBytes p = s.readBytes p := by
    intro hfound
    have hkey := (hkeeps.findKey_eq p).resolve_left hfound
    rw [readBytes_eq, readBytes_eq, hfind, hkey]
    cases hk : s.findKey p with
    | error e => rfl
    | ok k =>
      have hfile : t.fileAt? k = s.fileAt? k := by
        have hfs := hsame k (names_iff_findKey.2 hk)
        -- the file holds what it held at the end or at the start, and those agree
        rcases h.files k with hf | hs
        · rw [hf, hfs]
        · exact hs
      simp only [hfile]
  by_cases hlost : s.findKey p = .error .notFound
  · -- what was missing stays missing
    have hs := readText_eq_notFound_iff.2 hlost
    have hf := readText_eq_notFound_iff.1 (hmissing hs)
    rw [hs, readText_eq_notFound_iff, hfind, hf]
  · rw [readText, readText, hbytes hlost]

end Between

end FileSystem

end IconCompiler
