import IconCompiler.Proofs.FileSystem.Listing
import IconCompiler.Proofs.Glob.Remaining

/-!
# Paths of names below the current directory

A path that is nothing but names, parted by slashes, names what stands under these names below the
current directory. A walk that starts there and goes along names finds paths of this kind.

## Key results

- `extend_ofNames`: a walk adds names one after another
- `names_ofNames_iff`: what such a path names
- `mem_children_iff`: the names that can be added
-/

namespace IconCompiler

open IconCompiler.Path Glob

/-- The path of names below the current directory. -/
def Path.ofNames : List FileName → Path
  | [] => .dot
  | names => .ofSegments names

/-- Whether a name can stand between slashes: it is not empty, and no dot or double dot. -/
structure FileName.IsPlain (name : FileName) : Prop where
  isName : innerComponent? name = some (.name name)
  no_slash : slash ∉ name

/-- Whether the names in a file system are texts that a resolution can pass, and its current
    directory is there. -/
structure FileSystem.IsProper (fs : FileSystem) : Prop where
  current : fs.IsDirAt fs.current
  names : ∀ k, (fs.kindAt? k).isSome = true → ∀ name ∈ k, name.IsText ∧ IsPassable name

/-! ## Their text -/

section

variable {name : FileName} {names : List FileName}

theorem FileName.IsPlain.isVoid_eq_false (h : name.IsPlain) : isVoid name = false :=
  (innerComponent?_eq_name_iff.1 h.isName).1

theorem FileName.IsPlain.ne_dotDot (h : name.IsPlain) : name ≠ FileName.dotDot :=
  (innerComponent?_eq_name_iff.1 h.isName).2.1

theorem FileName.IsPlain.ne_nil (h : name.IsPlain) : name ≠ [] := by
  rintro rfl
  exact absurd h.isVoid_eq_false (by decide)

/-- A name that a resolution can pass is plain. -/
theorem Glob.IsPassable.isPlain (h : IsPassable name) : name.IsPlain :=
  ⟨h.isName, h.no_slash⟩

/-- The path of names is written with slashes between them, if there are any. -/
theorem ofNames_of_ne_nil (hne : names ≠ []) : ofNames names = ofSegments names := by
  obtain ⟨name, names, rfl⟩ := List.exists_cons_of_ne_nil hne
  rfl

/-- The path of names is relative. -/
private theorem isAbsolute_ofNames (h : ∀ n ∈ names, n.IsPlain) :
    (ofNames names).isAbsolute = false := by
  cases names with
  | nil => rfl
  | cons n names =>
    exact isAbsolute_ofSegments (h n List.mem_cons_self).ne_nil (h n List.mem_cons_self).no_slash

/-- The parts of the path of names are the names. -/
theorem segments_ofNames (hne : names ≠ []) (h : ∀ n ∈ names, n.IsPlain) :
    (ofNames names).segments = names := by
  rw [ofNames_of_ne_nil hne]
  exact segments_ofSegments hne fun n hn => (h n hn).no_slash

/-- The path of names has some text. -/
private theorem units_ofNames_ne_nil (h : ∀ n ∈ names, n.IsPlain) : (ofNames names).units ≠ [] := by
  by_cases hne : names = []
  · rw [hne]
    exact List.cons_ne_nil _ _
  · intro hnil
    -- a path without text has one empty part, which is no plain name
    have hvoid : (ofNames names).segments = [[]] := by rw [segments, hnil]; rfl
    rw [segments_ofNames hne h] at hvoid
    exact (h [] (by simp [hvoid])).ne_nil rfl

/-- A walk adds names one after another. -/
theorem extend_ofNames (h : ∀ n ∈ names ++ [name], n.IsPlain) :
    extend (ofNames names) name = ofNames (names ++ [name]) := by
  have hname : name.IsPlain := h name (by simp)
  have hnames : ∀ n ∈ names, n.IsPlain := fun n hn => h n (List.mem_append_left _ hn)
  -- in the current directory a name stands alone, and elsewhere behind a slash
  by_cases hne : names = []
  · rw [hne]
    exact congrArg Path.mk List.intercalate_singleton.symm
  · have hsegs := segments_ofNames hne hnames
    obtain ⟨first, hfirst⟩ := List.exists_mem_of_ne_nil names hne
    have hword : first ∈ words (ofNames names).segments := by
      rw [hsegs, words_of_not_isVoid fun n hn => (hnames n hn).isVoid_eq_false]
      exact hfirst
    have hcurrent : isCurrent (ofNames names) = false := isCurrent_of_mem_words hword
    -- no part is taken off the front, since the path does not end in a slash
    have hbody : (ofNames names).bodySegments = names := by
      rw [bodySegments, if_neg, hsegs]
      intro hslash
      obtain ⟨hends, -⟩ := segments_of_ends_slash hslash
      rw [hsegs] at hends
      exact (hnames [] (by rw [hends]; simp)).ne_nil rfl
    have hjoin : ((ofNames names).join ⟨name⟩).segments = names ++ [name] := by
      rw [segments_join (units_ofNames_ne_nil hnames)
        (isAbsolute_of_slash_not_mem hname.no_slash), hbody, segments,
        splitUnits_of_not_mem hname.no_slash]
    rw [extend, if_neg (by simp [hcurrent]), ← ofSegments_segments ((ofNames names).join ⟨name⟩),
      hjoin, ofNames_of_ne_nil (List.append_ne_nil_of_right_ne_nil _ (List.cons_ne_nil _ _))]

/-- A walk along a key adds all of its names. -/
theorem foldl_extend_ofNames {k : FileKey} (h : ∀ n ∈ names ++ k, n.IsPlain) :
    k.foldl extend (ofNames names) = ofNames (names ++ k) := by
  -- over the key, each of whose names goes to the end of the path
  induction k generalizing names with
  | nil => rw [List.foldl_nil, List.append_nil]
  | cons n k ih =>
    rw [← List.singleton_append, ← List.append_assoc] at h ⊢
    rw [List.foldl_append, List.foldl_cons, List.foldl_nil,
      extend_ofNames fun m hm => h m (List.mem_append_left _ hm)]
    exact ih h

end

namespace FileSystem

variable {fs : FileSystem} {name : FileName} {names : List FileName} {k : FileKey}

/-! ## What they name -/

/-- What is above something is a directory. -/
theorem isDirAt_of_append {a b : FileKey} (h : (fs.kindAt? (a ++ b)).isSome = true)
    (hb : b ≠ []) : fs.IsDirAt a := by
  rw [kindAt?, Option.isSome_map, Option.isSome_iff_exists] at h
  obtain ⟨t, ht⟩ := h
  exact FileTree.exists_dir_of_at?_append hb ht

/-- Above something something stands. -/
private theorem isSome_kindAt?_of_prefix {a b : FileKey} (h : (fs.kindAt? (a ++ b)).isSome = true) :
    (fs.kindAt? a).isSome = true := by
  by_cases hb : b = []
  · rwa [hb, List.append_nil] at h
  · exact isSome_kindAt?_of_isDirAt (isDirAt_of_append h hb)

/-- Names under which something stands are plain. -/
theorem IsProper.isPlain_of_append (hfs : fs.IsProper) {a b : FileKey}
    (h : (fs.kindAt? (a ++ b)).isSome = true) : ∀ n ∈ b, n.IsPlain :=
  fun n hn => (hfs.names _ h n (List.mem_append_right _ hn)).2.isPlain

/-- A name leads to what stands under it. -/
private theorem IsProper.keyStep_eq_ok_iff (hfs : fs.IsProper) {key : FileKey}
    (hname : name.IsPlain) :
    keyStep fs.kindAt? key name = .ok k ↔ k = key ++ [name] ∧ (fs.kindAt? k).isSome = true := by
  constructor
  · intro h
    simp only [keyStep, hname.isVoid_eq_false, hname.ne_dotDot, Bool.false_eq_true, if_false] at h
    split at h
    · cases h
    · cases h
    · split at h
      · cases h
      · split at h
        · rename_i hentry
          cases h
          exact ⟨rfl, hentry⟩
        · cases h
  · rintro ⟨rfl, hentry⟩
    -- the name is looked up, since what it stands in is a directory and it is not too long
    have hdir := isDirAt_of_append hentry (List.cons_ne_nil _ _)
    have hshort : isTooLong name = false := (hfs.names _ hentry name (by simp)).2.short
    simp only [keyStep, kindAt?_eq_true_iff.2 hdir, hname.isVoid_eq_false, hname.ne_dotDot, hshort,
      hentry, Bool.false_eq_true, if_false, if_true]

/-- Names lead to what stands under them. -/
private theorem IsProper.keyFrom_eq_ok_iff (hfs : fs.IsProper) {key : FileKey}
    (hkey : (fs.kindAt? key).isSome = true) (hnames : ∀ n ∈ names, n.IsPlain) :
    fs.keyFrom key names = .ok k ↔ k = key ++ names ∧ (fs.kindAt? k).isSome = true := by
  -- name by name, and what stands at the end has directories above it
  induction names generalizing key with
  | nil =>
    rw [List.append_nil]
    constructor
    · intro h
      obtain rfl := Except.ok.inj h
      exact ⟨rfl, hkey⟩
    · rintro ⟨rfl, -⟩
      rfl
  | cons n names ih =>
    have hn := hnames n List.mem_cons_self
    have hrest : ∀ m ∈ names, m.IsPlain := fun m hm => hnames m (List.mem_cons_of_mem _ hm)
    rw [keyFrom_cons, List.append_cons]
    constructor
    · intro h
      obtain ⟨key', hstep, hkey'⟩ := ok_of_bind h
      obtain ⟨rfl, hentry⟩ := (hfs.keyStep_eq_ok_iff hn).1 hstep
      exact (ih hentry hrest).1 hkey'
    · rintro ⟨rfl, hk⟩
      have hentry := isSome_kindAt?_of_prefix hk
      rw [(hfs.keyStep_eq_ok_iff hn).2 ⟨rfl, hentry⟩]
      exact (ih hentry hrest).2 ⟨rfl, hk⟩

/-- The path of names leads to what stands under them. -/
private theorem IsProper.leadsTo_ofNames_iff (hfs : fs.IsProper) (hnames : ∀ n ∈ names, n.IsPlain) :
    fs.LeadsTo (ofNames names) k ↔
      k = fs.current ++ names ∧ (fs.kindAt? k).isSome = true := by
  have hcurrent := isSome_kindAt?_of_isDirAt hfs.current
  have hpassed : ∀ n ∈ fs.current, n.IsPlain := hfs.isPlain_of_append (a := []) hcurrent
  have hstart : fs.keyFrom [] fs.current = .ok fs.current :=
    (hfs.keyFrom_eq_ok_iff rfl hpassed).2 ⟨rfl, hcurrent⟩
  rw [leadsTo_iff, startKey, if_neg (by simp [isAbsolute_ofNames hnames]), keyFrom_append, hstart]
  show fs.keyFrom fs.current (ofNames names).segments = .ok k ↔ _
  by_cases hne : names = []
  · -- a dot stays in the current directory
    subst hne
    have hdot : fs.keyFrom fs.current [FileName.dot] = .ok fs.current := by
      rw [keyFrom_cons, keyStep, kindAt?_eq_true_iff.2 hfs.current]
      rfl
    rw [show (ofNames []).segments = [FileName.dot] from rfl, hdot, List.append_nil]
    constructor
    · intro h
      obtain rfl := Except.ok.inj h
      exact ⟨rfl, hcurrent⟩
    · rintro ⟨rfl, -⟩
      rfl
  · rw [segments_ofNames hne hnames, hfs.keyFrom_eq_ok_iff hcurrent hnames]

/-- The path of names names what stands under them, unless it has a fault. -/
theorem IsProper.names_ofNames_iff (hfs : fs.IsProper) (hnames : ∀ n ∈ names, n.IsPlain) :
    fs.Names (ofNames names) k ↔ pathFault? (ofNames names) = none ∧
      k = fs.current ++ names ∧ (fs.kindAt? k).isSome = true := by
  rw [names_iff, hfs.leadsTo_ofNames_iff hnames]

/-- The path of names is that of a file if one stands under them and the path has no fault. -/
theorem IsProper.isFile_ofNames_iff (hfs : fs.IsProper) (hnames : ∀ n ∈ names, n.IsPlain) :
    fs.isFile (ofNames names) = true ↔
      (fs.fileAt? (fs.current ++ names)).isSome = true ∧ pathFault? (ofNames names) = none := by
  rw [isFile_iff]
  constructor
  · rintro ⟨k, hk, hfile⟩
    obtain ⟨hfault, rfl, -⟩ := (hfs.names_ofNames_iff hnames).1 hk
    -- the path names one key only, so the file is the one that stands there
    exact ⟨kindAt?_eq_false_iff.1 hfile, hfault⟩
  · rintro ⟨hfile, hfault⟩
    have hkind := isSome_kindAt?_of_fileAt? hfile
    exact ⟨_, (hfs.names_ofNames_iff hnames).2 ⟨hfault, rfl, hkind⟩,
      kindAt?_eq_false_iff.2 hfile⟩

/-- The front of a path of names has no fault if the path has none. -/
private theorem pathFault?_of_append {more : List FileName} (hnames : ∀ n ∈ names, n.IsPlain)
    (h : pathFault? (ofNames (names ++ more)) = none) : pathFault? (ofNames names) = none := by
  by_cases hne : names = []
  · rw [hne]
    decide
  · -- the text of the front is a beginning of the whole text
    have hunits := units_ofNames_ne_nil hnames
    rw [ofNames_of_ne_nil (List.append_ne_nil_of_left_ne_nil hne _)] at h
    rw [ofNames_of_ne_nil hne] at hunits ⊢
    exact pathFault?_of_isPrefix h (intercalate_isPrefix (List.prefix_append _ _)) hunits

/-- The beginning of a path of names that names something names something, too. -/
theorem IsProper.names_ofNames_of_append {more : List FileName} (hfs : fs.IsProper)
    (hnames : ∀ n ∈ names ++ more, n.IsPlain)
    (h : fs.Names (ofNames (names ++ more)) (fs.current ++ (names ++ more))) :
    fs.Names (ofNames names) (fs.current ++ names) := by
  have hfront : ∀ n ∈ names, n.IsPlain := fun n hn => hnames n (List.mem_append_left _ hn)
  obtain ⟨hfault, -, hkind⟩ := (hfs.names_ofNames_iff hnames).1 h
  rw [← List.append_assoc] at hkind
  exact (hfs.names_ofNames_iff hfront).2
    ⟨pathFault?_of_append hfront hfault, rfl, isSome_kindAt?_of_prefix hkind⟩

/-! ## Directories -/

/-- A path is that of a directory if it names one. -/
theorem isDir_iff_names {p : Path} : fs.isDir p = true ↔ ∃ k, fs.Names p k ∧ fs.IsDirAt k := by
  constructor
  · intro h
    obtain ⟨k, es, hk, hes, -⟩ := exists_names_of_isDir h
    exact ⟨k, hk, es, hes⟩
  · rintro ⟨k, hk, es, hes⟩
    rw [isDir, find?_of_names hk, hes]
    rfl

/-- The names in a directory are those that can be added to its key. -/
theorem mem_children_iff {p : Path} (hk : fs.Names p k) :
    name ∈ fs.children p ↔ (fs.kindAt? (k ++ [name])).isSome = true := by
  rw [children, find?_of_names hk, kindAt?, Option.isSome_map, FileTree.at?_append]
  cases hat : fs.tree.at? k with
  | none => simp
  | some t =>
    have hnodup := (fs.distinct.at? hat).nodup_entries
    -- under a key of one name stands what the directory holds under the name
    have hentry : t.at? [name] = t.child? name := by
      rw [FileTree.at?]
      cases t.child? name <;> rfl
    rw [Option.bind_some, hentry, FileTree.child?]
    constructor
    · intro h
      obtain ⟨e, he, rfl⟩ := List.mem_map.1 h
      rw [OrderedMap.lookup_of_mem hnodup he]
      rfl
    · intro h
      obtain ⟨u, hu⟩ := Option.isSome_iff_exists.1 h
      exact List.mem_map.2 ⟨_, OrderedMap.mem_of_lookup hu, rfl⟩

end FileSystem

end IconCompiler
