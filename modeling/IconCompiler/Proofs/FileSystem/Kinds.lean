import IconCompiler.Proofs.FileSystem.Joining

/-!
# What resolutions depend on

Where a path leads depends on nothing but what stands under which key: a file, a directory or
nothing. `keyFrom` resolves parts from this alone. So an operation that fails goes on failing, in
the same way, while nothing is added, and one that succeeds goes on succeeding whatever is added; a
resolution can only change its outcome by finding what was missing before.

## Key results

- `map_keyOf_resolveFrom`: resolutions depend on kinds only
- `Keeps.keyFrom_eq`: what is added changes the outcome of failures to find something only
- `enterFrom_words`: parts that say nothing do not matter on the way to a directory
-/

namespace IconCompiler.FileSystem

open IconCompiler.Path

variable {fs fs' : FileSystem}

/-! ## Kinds -/

/-- Whether a directory stands under a key, if anything does. -/
def kindAt? (fs : FileSystem) (k : FileKey) : Option Bool :=
  (fs.tree.at? k).map FileTree.isDir

/-- The kind of a directory. -/
theorem kindAt?_eq_true_iff {k : FileKey} : fs.kindAt? k = some true ↔ fs.IsDirAt k := by
  unfold kindAt? IsDirAt
  cases fs.tree.at? k with
  | none => simp
  | some t => cases t <;> simp [FileTree.isDir]

/-- The kind of a file. -/
theorem kindAt?_eq_false_iff {k : FileKey} :
    fs.kindAt? k = some false ↔ (fs.fileAt? k).isSome = true := by
  unfold kindAt? fileAt?
  cases fs.tree.at? k with
  | none => simp
  | some t => cases t <;> simp [FileTree.isDir]

/-- Where a file stands something stands. -/
theorem isSome_kindAt?_of_fileAt? {k : FileKey} (h : (fs.fileAt? k).isSome = true) :
    (fs.kindAt? k).isSome = true := by
  rw [kindAt?_eq_false_iff.2 h]
  rfl

/-- Where a directory stands something stands. -/
theorem isSome_kindAt?_of_isDirAt {k : FileKey} (h : fs.IsDirAt k) :
    (fs.kindAt? k).isSome = true := by
  rw [kindAt?_eq_true_iff.2 h]
  rfl

/-- What stands under a key keeps its kind. -/
theorem Keeps.kindAt? (h : Keeps fs fs') {k : FileKey} {b : Bool} (hk : fs.kindAt? k = some b) :
    fs'.kindAt? k = some b := by
  cases b with
  | true => exact kindAt?_eq_true_iff.2 (h.dirs k (kindAt?_eq_true_iff.1 hk))
  | false => exact kindAt?_eq_false_iff.2 (h.files k (kindAt?_eq_false_iff.1 hk))

/-- Whether the same kinds stand under all keys of two file systems. -/
structure SameKinds (fs fs' : FileSystem) : Prop where
  current : fs'.current = fs.current
  kinds : fs'.kindAt? = fs.kindAt?

/-- Where the kinds are the same nothing is lost. -/
theorem SameKinds.keeps (h : SameKinds fs fs') : Keeps fs fs' := by
  refine ⟨h.current, fun k hk => ?_, fun k hk => ?_⟩
  · rwa [← kindAt?_eq_false_iff, h.kinds, kindAt?_eq_false_iff]
  · rwa [← kindAt?_eq_true_iff, h.kinds, kindAt?_eq_true_iff]

/-! ## Resolutions -/

/-- One step of a resolution: `seg` seen from what stands under a key. -/
def keyStep (kind : FileKey → Option Bool) (key : FileKey) (seg : FileName) :
    Except IoFault FileKey :=
  match kind key with
  | none => .error .notFound
  | some false => .error .notDirectory
  | some true =>
    if isVoid seg then .ok key
    else if seg = FileName.dotDot then .ok key.dropLast
    else if isTooLong seg then .error .nameTooLong
    else if (kind (key ++ [seg])).isSome then .ok (key ++ [seg])
    else .error .notFound

/-- The key to which parts lead, from another one. -/
def keyFrom (fs : FileSystem) (key : FileKey) (segs : List FileName) : Except IoFault FileKey :=
  segs.foldlM (keyStep fs.kindAt?) key

theorem keyFrom_cons (key : FileKey) (seg : FileName) (segs : List FileName) :
    fs.keyFrom key (seg :: segs) =
      (keyStep fs.kindAt? key seg).bind fun key => fs.keyFrom key segs := by
  rw [keyFrom, List.foldlM_cons]
  rfl

theorem keyFrom_append (key : FileKey) (a b : List FileName) :
    fs.keyFrom key (a ++ b) = (fs.keyFrom key a).bind fun key => fs.keyFrom key b := by
  rw [keyFrom, List.foldlM_append]
  rfl

/-- The kind of what stands where a way ends. -/
theorem kindAt?_keyOf {trail : Trail} (hw : fs.IsWay trail) :
    fs.kindAt? (keyOf trail) = some (fs.treeAt trail).isDir := by
  rw [kindAt?, hw.at?_keyOf]
  rfl

/-- A step of a resolution depends on kinds only. -/
private theorem map_keyOf_resolveSegment {trail : Trail} (hw : fs.IsWay trail) (seg : FileName) :
    (fs.resolveSegment trail seg).map keyOf = keyStep fs.kindAt? (keyOf trail) seg := by
  rw [keyStep, kindAt?_keyOf hw]
  cases htree : fs.treeAt trail with
  | file content =>
    -- nothing leads on from a file, which is what the kind says
    rw [resolveSegment_of_not_isDir (by rw [htree]; rfl)]
    rfl
  | dir es =>
    have hentry : (fs.kindAt? (keyOf trail ++ [seg])).isSome =
        (OrderedMap.lookup seg es).isSome := by
      rw [kindAt?, Option.isSome_map, at?_keyOf_concat hw htree]
    -- the same checks in the same order on both sides
    simp only [resolveSegment, htree, FileTree.isDir, hentry]
    split
    · rfl
    · split
      · exact congrArg Except.ok (keyOf_tail trail)
      · split
        · rfl
        · cases OrderedMap.lookup seg es with
          | none => rfl
          | some t => exact congrArg Except.ok (keyOf_cons seg t trail)

/-- Resolutions depend on kinds only. -/
theorem map_keyOf_resolveFrom {trail : Trail} (hw : fs.IsWay trail) (segs : List FileName) :
    (fs.resolveFrom trail segs).map keyOf = fs.keyFrom (keyOf trail) segs := by
  -- over the parts; each step ends at a way, whose key the next one starts from
  induction segs generalizing trail with
  | nil => rfl
  | cons seg segs ih =>
    rw [resolveFrom_cons, keyFrom_cons, ← map_keyOf_resolveSegment hw]
    cases hstep : fs.resolveSegment trail seg with
    | error e => rfl
    | ok trail' => exact ih (isWay_of_resolveSegment hw hstep)

/-- Parts lead to the same keys where the kinds are the same. -/
theorem SameKinds.keyFrom_eq (h : SameKinds fs fs') : fs'.keyFrom = fs.keyFrom := by
  funext key segs
  rw [keyFrom, keyFrom, h.kinds]

/-- A path starts from the same directory where nothing has been lost. -/
theorem Keeps.startKey_eq (h : Keeps fs fs') (p : Path) : fs'.startKey p = fs.startKey p := by
  rw [startKey, startKey, h.current]

/-- What is added changes the outcome of a step only if it found nothing before. -/
theorem Keeps.keyStep_eq (h : Keeps fs fs') (key : FileKey) (seg : FileName) :
    keyStep fs.kindAt? key seg = .error .notFound ∨
      keyStep fs'.kindAt? key seg = keyStep fs.kindAt? key seg := by
  unfold keyStep
  cases hkey : fs.kindAt? key with
  | none => exact .inl rfl
  | some b =>
    rw [h.kindAt? hkey]
    cases b with
    | false => exact .inr rfl
    | true =>
      dsimp only
      cases hentry : fs.kindAt? (key ++ [seg]) with
      | some b' => exact .inr (by rw [h.kindAt? hentry])
      | none =>
        -- only the last case looks at the entry
        split
        · exact .inr rfl
        · split
          · exact .inr rfl
          · split
            · exact .inr rfl
            · exact .inl rfl

/-- What is added changes the outcome of a resolution only if it found nothing before. -/
theorem Keeps.keyFrom_eq (h : Keeps fs fs') (key : FileKey) (segs : List FileName) :
    fs.keyFrom key segs = .error .notFound ∨ fs'.keyFrom key segs = fs.keyFrom key segs := by
  induction segs generalizing key with
  | nil => exact .inr rfl
  | cons seg segs ih =>
    rw [keyFrom_cons, keyFrom_cons]
    rcases h.keyStep_eq key seg with hlost | hsame
    · -- a step that found nothing ends the resolution
      exact .inl (by rw [hlost]; rfl)
    · rw [hsame]
      cases keyStep fs.kindAt? key seg with
      | error e => exact .inr rfl
      | ok key' => exact ih key'

/-- Parts that led somewhere go on to lead there. -/
theorem Keeps.keyFrom_eq_ok (h : Keeps fs fs') {key key' : FileKey} {segs : List FileName}
    (hkey : fs.keyFrom key segs = .ok key') : fs'.keyFrom key segs = .ok key' := by
  rcases h.keyFrom_eq key segs with hlost | hsame
  · rw [hkey] at hlost
    cases hlost
  · rw [hsame, hkey]

/-- The key of what a path names. -/
def findKey (fs : FileSystem) (p : Path) : Except IoFault FileKey :=
  match pathFault? p with
  | some e => .error e
  | none => fs.keyFrom [] (fs.startKey p ++ p.segments)

/-- The key of what a path names is that of the way which its resolution finds. -/
theorem findKey_eq (p : Path) : fs.findKey p = (fs.resolve p).map keyOf := by
  rw [resolve_eq, findKey]
  cases pathFault? p with
  | some e => rfl
  | none => exact (map_keyOf_resolveFrom .root _).symm

/-- A path names the key that is found. -/
theorem names_iff_findKey {p : Path} {k : FileKey} : fs.Names p k ↔ fs.findKey p = .ok k := by
  rw [findKey_eq]
  constructor
  · rintro ⟨trail, hp, rfl⟩
    rw [hp]
    rfl
  · intro h
    -- the key is that of a way, and the resolution finds the way
    obtain ⟨trail, hp, hkey⟩ := ok_of_map h
    exact ⟨trail, hp, hkey⟩

/-- What is read is what the file under the key holds. -/
theorem readBytes_eq (p : Path) : fs.readBytes p =
    match fs.findKey p with
    | .error e => .error e
    | .ok k =>
      match fs.fileAt? k with
      | some content => .ok content
      | none => .error .isDirectory := by
  rw [findKey_eq, readBytes]
  cases hp : fs.resolve p with
  | error e => rfl
  | ok trail =>
    have hway := isWay_of_resolveFrom .root (resolve_eq_ok hp).2
    -- both ask what stands where the way ends
    simp only [Except.map, fileAt?, hway.at?_keyOf]
    cases fs.treeAt trail <;> rfl

/-- Paths name the same keys where the kinds are the same. -/
theorem SameKinds.findKey_eq (h : SameKinds fs fs') (p : Path) : fs'.findKey p = fs.findKey p := by
  rw [findKey, findKey, h.keyFrom_eq, startKey, startKey, h.current]

/-- What is added changes what a path names only if it named nothing before. -/
theorem Keeps.findKey_eq (h : Keeps fs fs') (p : Path) :
    fs.findKey p = .error .notFound ∨ fs'.findKey p = fs.findKey p := by
  unfold findKey
  cases pathFault? p with
  | some e => exact .inr rfl
  | none =>
    rw [h.startKey_eq]
    exact h.keyFrom_eq _ _

/-! ## Entering directories -/

/-- The key of a directory, which has to be one. -/
def stay (fs : FileSystem) (key : FileKey) : Except IoFault FileKey :=
  match fs.kindAt? key with
  | none => .error .notFound
  | some false => .error .notDirectory
  | some true => .ok key

/-- The key of the directory to which parts lead, from another one. -/
def enterFrom (fs : FileSystem) (key : FileKey) (segs : List FileName) : Except IoFault FileKey :=
  (fs.keyFrom key segs).bind fs.stay

/-- A step fails as it does to stay where it starts, or goes on from there. -/
private theorem keyStep_eq_bind (key : FileKey) (seg : FileName) :
    keyStep fs.kindAt? key seg = (fs.stay key).bind fun key => keyStep fs.kindAt? key seg := by
  rw [stay]
  cases hkey : fs.kindAt? key with
  | none => rw [keyStep, hkey]; rfl
  | some b =>
    cases b with
    | true => rfl
    | false => rw [keyStep, hkey]; rfl

/-- A directory is entered only from a directory. -/
private theorem enterFrom_eq_bind (key : FileKey) (segs : List FileName) :
    fs.enterFrom key segs = (fs.stay key).bind fun key => fs.enterFrom key segs := by
  cases segs with
  | nil =>
    -- without parts, staying twice is staying once
    show fs.stay key = (fs.stay key).bind fs.stay
    unfold stay
    cases hkey : fs.kindAt? key with
    | none => rfl
    | some b => cases b <;> simp [Except.bind, hkey]
  | cons seg segs =>
    rw [enterFrom, keyFrom_cons, keyStep_eq_bind]
    cases fs.stay key <;> rfl

theorem enterFrom_append (key : FileKey) (a b : List FileName) :
    fs.enterFrom key (a ++ b) = (fs.enterFrom key a).bind fun key => fs.enterFrom key b := by
  rw [enterFrom, enterFrom, keyFrom_append]
  cases fs.keyFrom key a with
  | error e => rfl
  | ok key' => exact enterFrom_eq_bind key' b

/-- A part that says nothing does not matter on the way to a directory. -/
theorem enterFrom_cons_of_isVoid {seg : FileName} (hv : isVoid seg = true) (key : FileKey)
    (segs : List FileName) : fs.enterFrom key (seg :: segs) = fs.enterFrom key segs := by
  have hstep : keyStep fs.kindAt? key seg = fs.stay key := by
    simp only [keyStep, stay, hv, if_true]
  rw [enterFrom_eq_bind key segs, enterFrom, keyFrom_cons, hstep]
  cases fs.stay key <;> rfl

/-- Parts that say nothing do not matter on the way to a directory. -/
theorem enterFrom_words (key : FileKey) (segs : List FileName) :
    fs.enterFrom key (words segs) = fs.enterFrom key segs := by
  induction segs generalizing key with
  | nil => rfl
  | cons seg segs ih =>
    by_cases hv : isVoid seg = true
    · have hwords : words (seg :: segs) = words segs := by
        rw [words, List.filter_cons_of_neg (by simp [hv])]
        rfl
      -- the part goes from both sides; a word stays on both
      rw [hwords, ih, enterFrom_cons_of_isVoid hv]
    · have hwords : words (seg :: segs) = seg :: words segs := by
        rw [words, List.filter_cons_of_pos (by simp [hv])]
        rfl
      rw [hwords, enterFrom, enterFrom, keyFrom_cons, keyFrom_cons]
      cases keyStep fs.kindAt? key seg with
      | error e => rfl
      | ok key' => exact ih key'

/-- One can stay in a directory. -/
theorem stay_of_isDirAt {key : FileKey} (h : fs.IsDirAt key) : fs.stay key = .ok key := by
  rw [stay, kindAt?_eq_true_iff.2 h]

/-- One can stay in directories only. -/
theorem stay_eq_ok {key key' : FileKey} (h : fs.stay key = .ok key') :
    key' = key ∧ fs.IsDirAt key := by
  unfold stay at h
  split at h
  · cases h
  · cases h
  · rename_i hkey
    exact ⟨(Except.ok.inj h).symm, kindAt?_eq_true_iff.1 hkey⟩

/-- What is entered is a directory. -/
theorem isDirAt_of_enterFrom {key key' : FileKey} {segs : List FileName}
    (h : fs.enterFrom key segs = .ok key') : fs.IsDirAt key' := by
  obtain ⟨last, -, hlast⟩ := ok_of_bind h
  obtain ⟨rfl, hdir⟩ := stay_eq_ok hlast
  exact hdir

end IconCompiler.FileSystem
