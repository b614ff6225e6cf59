import IconCompiler.FileSystem
import IconCompiler.Proofs.Outcome
import IconCompiler.Proofs.Path.Relative

/-!
# Where paths lead

Resolving a path builds a way from the root of the tree, name by name. `IsWay` says which lists are
ways; a resolution keeps to ways, and whatever it passes is a directory. So the parts of a path that
say nothing do not matter as long as a word follows them.

## Key results

- `isWay_of_resolveFrom`: a resolution ends at a way
- `resolveFrom_words`: parts that say nothing do not matter before a word
- `endsInName_of_isFile`: the path of a file ends in a name
-/

namespace IconCompiler

open IconCompiler.Path

/-! ## Names in trees -/

/-- Whether a name can be that of a file: a text without a slash. -/
structure FileName.IsFileName (n : FileName) : Prop where
  isText : n.IsText
  no_slash : slash ∉ n

/-- A text without slashes can be the name of a file. -/
theorem FileName.isFileName_ofChars {cs : List Char} (h : '/' ∉ cs) : (ofChars cs).IsFileName :=
  ⟨⟨cs, rfl⟩, slash_not_mem_ofChars h⟩

/-- Whether all names in a tree can be those of files. -/
inductive FileTree.WellNamed : FileTree → Prop
  | file (content : ByteArray) : WellNamed (.file content)
  | dir {es : List (FileName × FileTree)} (names : ∀ e ∈ es, FileName.IsFileName e.1)
    (trees : ∀ e ∈ es, WellNamed e.2) : WellNamed (.dir es)

namespace FileTree

/-- The names in a well-named directory can be those of files. -/
theorem WellNamed.isFileName {t : FileTree} (h : t.WellNamed) {e : FileName × FileTree}
    (he : e ∈ t.entries) : e.1.IsFileName := by
  cases h with
  | file => cases he
  | dir names => exact names e he

/-- What lies in a well-named tree is well-named. -/
theorem WellNamed.of_mem_entries {t : FileTree} (h : t.WellNamed) {e : FileName × FileTree}
    (he : e ∈ t.entries) : e.2.WellNamed := by
  cases h with
  | file => cases he
  | dir _ trees => exact trees e he

/-- What stands under a key of a well-named tree is well-named. -/
theorem WellNamed.at? {t s : FileTree} (h : t.WellNamed) {key : FileKey}
    (hs : t.at? key = some s) : s.WellNamed := by
  -- along the key, from the tree under its first name to the one under the rest
  induction key generalizing t with
  | nil =>
    cases hs
    exact h
  | cons name key ih =>
    simp only [FileTree.at?] at hs
    split at hs
    · rename_i hc
      exact ih (h.of_mem_entries (OrderedMap.mem_of_lookup hc)) hs
    · cases hs

/-- Directories within one another are well-named if their names are. -/
theorem wellNamed_chain {key : FileKey} (h : ∀ name ∈ key, name.IsFileName) :
    (chain key).WellNamed := by
  induction key with
  | nil => exact .dir (by simp) (by simp)
  | cons name key ih =>
    have hkey := ih fun n hn => h n (List.mem_cons_of_mem _ hn)
    exact .dir (by simpa using h name List.mem_cons_self) (by simpa using hkey)

/-- What is put under a key keeps a tree well-named if it is and the key is. -/
theorem WellNamed.put {t new : FileTree} (h : t.WellNamed) (hnew : new.WellNamed) {key : FileKey}
    (hkey : ∀ name ∈ key, name.IsFileName) : (t.put key new).WellNamed := by
  induction key generalizing t with
  | nil => exact hnew
  | cons name key ih =>
    -- where nothing stands under the first name, the rest is put into an empty directory
    have hsub : ((t.child? name).getD empty).WellNamed := by
      cases hc : t.child? name with
      | none => exact .dir (by simp) (by simp)
      | some s => exact h.of_mem_entries (OrderedMap.mem_of_lookup hc)
    have hrest := ih hsub fun n hn => hkey n (List.mem_cons_of_mem _ hn)
    refine .dir ?_ ?_
    · intro e he
      rcases OrderedMap.mem_put he with rfl | he
      · exact hkey name List.mem_cons_self
      · exact h.isFileName he
    · intro e he
      rcases OrderedMap.mem_put he with rfl | he
      · exact hrest
      · exact h.of_mem_entries he

/-- A file that is put under names that are texts keeps a tree well-named. -/
theorem WellNamed.put_ofChars {t : FileTree} (h : t.WellNamed) (names : List (List Char))
    (content : ByteArray) (hnames : ∀ cs ∈ names, '/' ∉ cs) :
    (t.put (names.map FileName.ofChars) (.file content)).WellNamed := by
  refine h.put (.file content) fun name hname => ?_
  obtain ⟨cs, hcs, rfl⟩ := List.mem_map.1 hname
  exact FileName.isFileName_ofChars (hnames cs hcs)

end FileTree

namespace FileSystem

variable (fs : FileSystem)

/-! ## Ways -/

/-- Whether a list of names with what stands there is a way from the root of the tree. -/
inductive IsWay : Trail → Prop
  | root : IsWay []
  | enter {trail : Trail} {es : List (FileName × FileTree)} {name : FileName} {t : FileTree}
    (way : IsWay trail) (dir : fs.treeAt trail = .dir es)
    (entry : OrderedMap.lookup name es = some t) : IsWay ((name, t) :: trail)

variable {fs}

/-- What stands where a way ends is what the tree has under its key. -/
theorem IsWay.at?_keyOf {trail : Trail} (h : fs.IsWay trail) :
    fs.tree.at? (keyOf trail) = some (fs.treeAt trail) := by
  induction h with
  | root => rfl
  | @enter trail es name t way dir entry ih =>
    -- the key is the way read from the root, so the last step is its last name
    have hkey : keyOf ((name, t) :: trail) = keyOf trail ++ [name] := by simp [keyOf]
    rw [hkey, FileTree.at?_append, ih, dir]
    simp only [Option.bind_some, FileTree.at?, FileTree.child?, FileTree.entries, entry]
    rfl

/-- Every way but the shortest passes a directory. -/
private theorem IsWay.isDir_tail {trail : Trail} (h : fs.IsWay trail)
    (hd : (fs.treeAt trail).isDir = true) : (fs.treeAt trail.tail).isDir = true := by
  cases h with
  | root => exact hd
  | enter way dir entry =>
    rw [List.tail_cons, dir]
    rfl

theorem IsWay.tail {trail : Trail} (h : fs.IsWay trail) : fs.IsWay trail.tail := by
  cases h with
  | root => exact .root
  | enter way => exact way

/-! ## Resolutions -/

/-- Resolves parts one after another, from where a way ends. -/
def resolveFrom (fs : FileSystem) (trail : Trail) (segs : List FileName) : Except IoFault Trail :=
  segs.foldlM fs.resolveSegment trail

theorem resolveFrom_cons (trail : Trail) (seg : FileName) (segs : List FileName) :
    fs.resolveFrom trail (seg :: segs) =
      (fs.resolveSegment trail seg).bind fun trail => fs.resolveFrom trail segs := by
  rw [resolveFrom, List.foldlM_cons]
  rfl

theorem resolveFrom_append (trail : Trail) (a b : List FileName) :
    fs.resolveFrom trail (a ++ b) =
      (fs.resolveFrom trail a).bind fun trail => fs.resolveFrom trail b := by
  rw [resolveFrom, List.foldlM_append]
  rfl

/-- What a step can do: it starts at a directory, and stays there, goes up or enters it. -/
theorem resolveSegment_eq_ok {trail trail' : Trail} {seg : FileName}
    (h : fs.resolveSegment trail seg = .ok trail') :
    ∃ es, fs.treeAt trail = .dir es ∧
      ((isVoid seg = true ∧ trail' = trail) ∨ (seg = FileName.dotDot ∧ trail' = trail.tail) ∨
        (innerComponent? seg = some (.name seg) ∧
          ∃ t, OrderedMap.lookup seg es = some t ∧ trail' = (seg, t) :: trail)) := by
  unfold resolveSegment at h
  split at h
  · cases h
  · rename_i es hes
    refine ⟨es, hes, ?_⟩
    split at h
    · rename_i hv
      exact .inl ⟨hv, (Except.ok.inj h).symm⟩
    · rename_i hv
      split at h
      · rename_i hd
        exact .inr (.inl ⟨hd, (Except.ok.inj h).symm⟩)
      · rename_i hd
        split at h
        · cases h
        · split at h
          · rename_i t ht
            refine .inr (.inr ⟨?_, t, ht, (Except.ok.inj h).symm⟩)
            -- a part that neither stays nor goes up is a name
            rw [innerComponent?, if_neg hv, if_neg hd]
          · cases h

/-- Nothing leads on from a file. -/
theorem resolveSegment_of_not_isDir {trail : Trail} (h : (fs.treeAt trail).isDir = false)
    (seg : FileName) : fs.resolveSegment trail seg = .error .notDirectory := by
  unfold resolveSegment
  split
  · rfl
  · rename_i heq
    rw [heq] at h
    cases h

/-- A step of a resolution goes from a way to a way. -/
theorem isWay_of_resolveSegment {trail trail' : Trail} {seg : FileName} (hw : fs.IsWay trail)
    (h : fs.resolveSegment trail seg = .ok trail') : fs.IsWay trail' := by
  obtain ⟨es, hes, ⟨-, rfl⟩ | ⟨-, rfl⟩ | ⟨-, t, ht, rfl⟩⟩ := resolveSegment_eq_ok h
  · exact hw
  · exact hw.tail
  · exact .enter hw hes ht

/-- A resolution ends at a way. -/
theorem isWay_of_resolveFrom {trail trail' : Trail} {segs : List FileName} (hw : fs.IsWay trail)
    (h : fs.resolveFrom trail segs = .ok trail') : fs.IsWay trail' := by
  -- over the parts, each a step from the way reached so far
  induction segs generalizing trail with
  | nil =>
    cases h
    exact hw
  | cons seg segs ih =>
    rw [resolveFrom_cons] at h
    obtain ⟨trail₁, h₁, h₂⟩ := ok_of_bind h
    exact ih (isWay_of_resolveSegment hw h₁) h₂

/-! ## Parts that say nothing -/

/-- A part in front that says nothing does not change how parts end. -/
private theorem endsInWord_cons_iff {seg : FileName} {segs : List FileName}
    (hv : isVoid seg = true) :
    EndsInWord (seg :: segs) ↔ EndsInWord segs := by
  cases segs with
  | nil =>
    constructor
    · rintro ⟨last, hlast, hv'⟩
      -- the part alone is the last one, and it is no word
      obtain rfl : seg = last := Option.some.inj hlast
      rw [hv] at hv'
      cases hv'
    · rintro ⟨_, hseg, -⟩
      cases hseg
  | cons seg' segs => rw [EndsInWord, List.getLast?_cons_cons]; rfl

/-- A part that says nothing does not matter if another part follows. -/
theorem resolveFrom_void_cons {seg : FileName} {segs : List FileName} (hv : isVoid seg = true)
    (hne : segs ≠ []) (trail : Trail) :
    fs.resolveFrom trail (seg :: segs) = fs.resolveFrom trail segs := by
  rw [resolveFrom_cons]
  cases htree : fs.treeAt trail with
  | dir es =>
    have hstay : fs.resolveSegment trail seg = .ok trail := by
      simp only [resolveSegment, htree, hv, if_true]
    rw [hstay]
    rfl
  | file content =>
    -- both fail at the file, since a part is still to come
    obtain ⟨next, rest, rfl⟩ := List.exists_cons_of_ne_nil hne
    have hfile : (fs.treeAt trail).isDir = false := by
      rw [htree]
      rfl
    rw [resolveSegment_of_not_isDir hfile, resolveFrom_cons, resolveSegment_of_not_isDir hfile]
    rfl

/-- Parts that say nothing do not matter before a word. -/
theorem resolveFrom_words {segs : List FileName} (h : EndsInWord segs) (trail : Trail) :
    fs.resolveFrom trail segs = fs.resolveFrom trail (words segs) := by
  induction segs generalizing trail with
  | nil => rfl
  | cons seg segs ih =>
    by_cases hv : isVoid seg = true
    · have hends : EndsInWord segs := (endsInWord_cons_iff hv).1 h
      have hwords : words (seg :: segs) = words segs := by
        rw [words, List.filter_cons_of_neg (by simp [hv])]
        rfl
      rw [resolveFrom_void_cons hv hends.ne_nil, hwords]
      -- the part goes from both sides
      exact ih hends trail
    · have hwords : words (seg :: segs) = seg :: words segs := by
        rw [words, List.filter_cons_of_pos (by simp [hv])]
        rfl
      rw [hwords, resolveFrom_cons, resolveFrom_cons]
      -- a word at the end is its own end; behind any other one the parts still end in a word
      cases segs with
      | nil => rfl
      | cons seg' segs =>
        have hends : EndsInWord (seg' :: segs) := by
          obtain ⟨s, hs, hv'⟩ := h
          exact ⟨s, by rwa [List.getLast?_cons_cons] at hs, hv'⟩
        exact congrArg _ (funext fun trail => ih hends trail)

/-- The way that a path's parts lead, however long the path is. -/
def wayTo (fs : FileSystem) (p : Path) : Except IoFault Trail :=
  fs.resolveFrom [] (fs.startKey p ++ p.segments)

theorem resolve_eq (p : Path) :
    fs.resolve p = match pathFault? p with
      | some e => .error e
      | none => fs.wayTo p := rfl

/-- A path that is resolved has no fault. -/
theorem resolve_eq_ok {p : Path} {trail : Trail} (h : fs.resolve p = .ok trail) :
    pathFault? p = none ∧ fs.wayTo p = .ok trail := by
  rw [resolve_eq] at h
  split at h
  · cases h
  · rename_i hfault
    exact ⟨hfault, h⟩

/-- Where a path starts depends on whether it is absolute. -/
theorem startKey_congr {p q : Path} (h : p.isAbsolute = q.isAbsolute) :
    fs.startKey p = fs.startKey q := by
  rw [startKey, startKey, h]

/-- A path that ends in a word leads where its words lead. -/
private theorem wayTo_words {p : Path} (h : EndsInWord p.segments) :
    fs.wayTo p = fs.resolveFrom [] (words (fs.startKey p) ++ words p.segments) := by
  rw [wayTo, resolveFrom_words (h.append _), words_append]

/-- Paths with the same words lead to the same place. -/
theorem wayTo_of_hasWordsOf {p q : Path} (h : q.HasWordsOf p) (hp : EndsInWord p.segments) :
    fs.wayTo q = fs.wayTo p := by
  rw [wayTo_words h.ends, wayTo_words hp, h.words, startKey_congr h.isAbsolute]

/-! ## Paths of files -/

/-- The way to a file. -/
theorem exists_of_isFile {p : Path} (h : fs.isFile p = true) :
    ∃ trail content, fs.resolve p = .ok trail ∧ fs.treeAt trail = .file content := by
  unfold isFile find? at h
  cases hp : fs.resolve p with
  | error e =>
    rw [hp] at h
    cases h
  | ok trail =>
    rw [hp] at h
    cases ht : fs.treeAt trail with
    | dir es =>
      simp only [ht] at h
      cases h
    | file content => exact ⟨trail, content, rfl, ht⟩

/-- Parts that lead to a file end in a name. -/
theorem endsInName_of_resolveFrom {segs : List FileName} {seg : FileName} {trail : Trail}
    (h : fs.resolveFrom [] (segs ++ [seg]) = .ok trail) (hfile : (fs.treeAt trail).isDir = false) :
    innerComponent? seg = some (.name seg) := by
  rw [resolveFrom_append] at h
  obtain ⟨dir, hdir, hlast⟩ := ok_of_bind h
  rw [resolveFrom_cons] at hlast
  obtain ⟨trail', hstep, hend⟩ := ok_of_bind hlast
  obtain rfl := Except.ok.inj hend
  have hway : fs.IsWay dir := isWay_of_resolveFrom .root hdir
  -- to stay or to go up ends at a directory
  obtain ⟨es, hes, ⟨-, rfl⟩ | ⟨-, rfl⟩ | ⟨hname, -⟩⟩ := resolveSegment_eq_ok hstep
  · rw [hes] at hfile
    cases hfile
  · rw [hway.isDir_tail (by rw [hes]; rfl)] at hfile
    cases hfile
  · exact hname

/-- The path of a file ends in a name. -/
theorem endsInName_of_isFile {p : Path} (h : fs.isFile p = true) :
    ∃ init name, p.segments = init ++ [name] ∧ innerComponent? name = some (.name name) := by
  obtain ⟨trail, content, hp, hfile⟩ := exists_of_isFile h
  obtain ⟨-, hway⟩ := resolve_eq_ok hp
  have hne : p.segments ≠ [] := splitUnits_ne_nil p.units
  refine ⟨p.segments.dropLast, p.segments.getLast hne, (List.dropLast_concat_getLast hne).symm, ?_⟩
  -- the last of the parts is taken off, to look at the step that comes to the file
  rw [wayTo, ← List.dropLast_concat_getLast hne, ← List.append_assoc] at hway
  exact endsInName_of_resolveFrom hway (by rw [hfile]; rfl)

/-- The names that a resolution passes stand in the tree. -/
private theorem isText_of_resolveFrom (hn : fs.tree.WellNamed) {trail trail' : Trail}
    {segs : List FileName} (hw : fs.IsWay trail) (h : fs.resolveFrom trail segs = .ok trail') :
    ∀ seg ∈ segs, seg.IsText := by
  induction segs generalizing trail with
  | nil => simp
  | cons seg segs ih =>
    rw [resolveFrom_cons] at h
    obtain ⟨trail₁, h₁, h₂⟩ := ok_of_bind h
    refine List.forall_mem_cons.2 ⟨?_, ih (isWay_of_resolveSegment hw h₁) h₂⟩
    -- a part says nothing, or goes up, or is a name in the tree
    obtain ⟨es, hes, ⟨hv, -⟩ | ⟨rfl, -⟩ | ⟨-, t, ht, -⟩⟩ := resolveSegment_eq_ok h₁
    · simp only [isVoid, Bool.or_eq_true, decide_eq_true_eq] at hv
      rcases hv with rfl | rfl
      · exact .nil
      · exact ⟨['.'], rfl⟩
    · exact ⟨['.', '.'], rfl⟩
    · have hnamed := hn.at? hw.at?_keyOf
      have hmem := OrderedMap.mem_of_lookup ht
      rw [hes] at hnamed
      exact (hnamed.isFileName hmem).isText

/-- A path that names something holds nothing but text. -/
theorem isText_of_resolve (hn : fs.tree.WellNamed) {p : Path} {trail : Trail}
    (h : fs.resolve p = .ok trail) : ∀ seg ∈ p.segments, seg.IsText := by
  intro seg hseg
  exact isText_of_resolveFrom hn .root (resolve_eq_ok h).2 seg (List.mem_append_right _ hseg)

end FileSystem

end IconCompiler
