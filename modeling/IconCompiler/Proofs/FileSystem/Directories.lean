import IconCompiler.Proofs.FileSystem.Kinds
import IconCompiler.Proofs.Path.Parents

/-!
# Making directories again

Making a directory with those above it leaves it in place, so doing it again makes nothing. If it
fails, what was made before stays, and doing it again fails as well. The fault need not be the same:
a path that went through a directory which was missing at first can come to a file the second time.

## Key results

- `makeKey_cases`: how making a directory and entering it compare
- `createDirs_again`: directories that were made are not made again
- `createDirs_fails_again`: what failed fails again
-/

namespace IconCompiler.FileSystem

open IconCompiler.Path

variable {fs fs' t : FileSystem}

/-! ## Places -/

/-- The key of the directory in which what a path asks to be created has to lie. -/
def homeKey (fs : FileSystem) (p : Path) : Except IoFault FileKey :=
  fs.enterFrom [] (fs.startKey p ++ p.trimmed.dropLast)

/-- The name of what a path asks to be created, unless it ends in a dot or double dot. -/
def placeName? (p : Path) : Option FileName :=
  p.trimmed.getLast?.filter fun seg => seg ≠ FileName.dot && seg ≠ FileName.dotDot

/-- The key under which a directory is made. -/
def makeKey (fs : FileSystem) (p : Path) : Except IoFault FileKey :=
  match pathFault? p with
  | some e => .error e
  | none =>
    match fs.homeKey p with
    | .error e => .error e
    | .ok dir =>
      match placeName? p with
      | none => .error .alreadyExists
      | some name =>
        if isTooLong name then .error .nameTooLong
        else if (fs.kindAt? (dir ++ [name])).isSome then .error .alreadyExists
        else .ok (dir ++ [name])

/-- What has to be so for a directory to be made: its place is free, and lies in a directory. -/
theorem makeKey_eq_ok {p : Path} {key : FileKey} (h : fs.makeKey p = .ok key) :
    ∃ dir name, key = dir ++ [name] ∧ pathFault? p = none ∧ fs.homeKey p = .ok dir ∧
      placeName? p = some name ∧ isTooLong name = false ∧ fs.kindAt? (dir ++ [name]) = none := by
  unfold makeKey at h
  split at h
  · cases h
  · rename_i hfault
    split at h
    · cases h
    · rename_i dir hhome
      split at h
      · cases h
      · rename_i name hplace
        split at h
        · cases h
        · rename_i hlong
          split at h
          · cases h
          · rename_i hfree
            exact ⟨dir, name, (Except.ok.inj h).symm, hfault, hhome, hplace, by simpa using hlong,
              by simpa using hfree⟩

/-- The key of the directory that a path names. -/
def dirKey (fs : FileSystem) (p : Path) : Except IoFault FileKey :=
  match pathFault? p with
  | some e => .error e
  | none => fs.enterFrom [] (fs.startKey p ++ p.segments)

/-- The target of a path without a fault, from where its front leads. -/
private theorem target_eq {p : Path} (hfault : pathFault? p = none) : fs.target p =
    match fs.resolveFrom [] (fs.startKey p ++ p.trimmed.dropLast) with
    | .error e => .error e
    | .ok trail =>
      match fs.treeAt trail with
      | .file _ => .error .notDirectory
      | .dir es => .ok ⟨keyOf trail, es, placeName? p, p.units.getLast? = some slash⟩ := by
  rw [target, hfault]
  rfl

/-- The target of a path, from the kinds of what stands in the tree. -/
private theorem target_cases (fs : FileSystem) {p : Path} (hfault : pathFault? p = none) :
    (∃ e, fs.target p = .error e ∧ fs.homeKey p = .error e) ∨
    ∃ dir siblings, fs.homeKey p = .ok dir ∧
      (∀ name, OrderedMap.lookup name siblings = fs.tree.at? (dir ++ [name])) ∧
      fs.target p = .ok ⟨dir, siblings, placeName? p, p.units.getLast? = some slash⟩ := by
  have hresolve := map_keyOf_resolveFrom (IsWay.root : fs.IsWay [])
    (fs.startKey p ++ p.trimmed.dropLast)
  -- the front of the path is resolved by way and by key at once
  rw [target_eq hfault, homeKey, enterFrom, show ([] : FileKey) = keyOf [] from rfl, ← hresolve]
  cases hway : fs.resolveFrom [] (fs.startKey p ++ p.trimmed.dropLast) with
  | error e => exact .inl ⟨e, rfl, rfl⟩
  | ok trail =>
    have hw := isWay_of_resolveFrom .root hway
    show (∃ e, _ ∧ fs.stay (keyOf trail) = .error e) ∨
      ∃ dir siblings, fs.stay (keyOf trail) = .ok dir ∧ _
    rw [stay, kindAt?_keyOf hw]
    cases htree : fs.treeAt trail with
    | file content => exact .inl ⟨_, by simp only [htree], rfl⟩
    | dir es =>
      exact .inr ⟨keyOf trail, es, rfl, fun name => (at?_keyOf_concat hw htree name).symm,
        by simp only [htree]⟩

/-- What making a directory does is settled by the kinds of what stands in the tree. -/
theorem makeDir_eq (p : Path) : fs.makeDir p = (fs.makeKey p).map (fs.putDir · []) := by
  cases hfault : pathFault? p with
  | some e => simp only [makeDir, makeKey, target, hfault]; rfl
  | none =>
    obtain ⟨e, htarget, hhome⟩ | ⟨dir, siblings, hhome, hentry, htarget⟩ :=
      fs.target_cases hfault
    · simp only [makeDir, makeKey, htarget, hfault, hhome]
      rfl
    · simp only [makeDir, makeKey, htarget, hfault, hhome]
      cases placeName? p with
      | none => rfl
      | some name =>
        -- what is looked up among the siblings is what the tree has under the longer key
        simp only [hentry, kindAt?, Option.isSome_map]
        split
        · rfl
        · split <;> rfl

/-- The key under which writing puts a file is settled by kinds, too. -/
theorem writeKey_eq (p : Path) : fs.writeKey p =
    match pathFault? p with
    | some e => .error e
    | none =>
      match fs.homeKey p with
      | .error e => .error e
      | .ok dir =>
        match placeName? p with
        | none => .error .isDirectory
        | some name =>
          if p.units.getLast? = some slash then .error .isDirectory
          else if isTooLong name then .error .nameTooLong
          else if fs.kindAt? (dir ++ [name]) = some true then .error .isDirectory
          else .ok (dir ++ [name]) := by
  cases hfault : pathFault? p with
  | some e => simp only [writeKey, target, hfault]
  | none =>
    obtain ⟨e, htarget, hhome⟩ | ⟨dir, siblings, hhome, hentry, htarget⟩ :=
      fs.target_cases hfault
    · simp only [writeKey, htarget, hhome]
    · simp only [writeKey, htarget, hhome]
      cases placeName? p with
      | none => rfl
      | some name =>
        have hdir : ((fs.tree.at? (dir ++ [name])).any FileTree.isDir = true) ↔
            (fs.tree.at? (dir ++ [name])).map FileTree.isDir = some true := by
          cases fs.tree.at? (dir ++ [name]) <;> simp
        simp only [hentry, kindAt?, decide_eq_true_eq, hdir]
        rfl

/-- A path is that of a directory if it can be entered. -/
theorem isDir_iff (p : Path) : fs.isDir p = true ↔ ∃ key, fs.dirKey p = .ok key := by
  have hresolve := map_keyOf_resolveFrom (IsWay.root : fs.IsWay []) (fs.startKey p ++ p.segments)
  rw [isDir, find?, resolve_eq, dirKey]
  cases pathFault? p with
  | some e => simp
  | none =>
    dsimp only
    rw [enterFrom, show ([] : FileKey) = keyOf [] from rfl, ← hresolve, wayTo]
    cases hway : fs.resolveFrom [] (fs.startKey p ++ p.segments) with
    | error e => simp [Except.map, Except.bind]
    | ok trail =>
      -- both ask whether the way ends at a directory
      show (fs.treeAt trail).isDir = true ↔ ∃ key, fs.stay (keyOf trail) = .ok key
      rw [stay, kindAt?_keyOf (isWay_of_resolveFrom .root hway)]
      cases (fs.treeAt trail).isDir <;> simp

/-! ## Making and entering -/

/-- Parts with the same words enter the same directory. -/
theorem enterFrom_congr {key : FileKey} {a b : List FileName} (h : words a = words b) :
    fs.enterFrom key a = fs.enterFrom key b := by
  rw [← enterFrom_words, h, enterFrom_words]

/-- A list is its front and its last element, if it has one. -/
private theorem dropLast_append_toList {α : Type} (l : List α) :
    l.dropLast ++ l.getLast?.toList = l := by
  cases hl : l.getLast? with
  | none => simp [List.getLast?_eq_none_iff.1 hl]
  | some a =>
    obtain ⟨init, rfl⟩ := List.getLast?_eq_some_iff.1 hl
    rw [List.dropLast_concat]
    rfl

/-- A directory is entered from the one in which it lies. -/
theorem dirKey_eq {p : Path} (hfault : pathFault? p = none) :
    fs.dirKey p =
      (fs.homeKey p).bind fun dir => fs.enterFrom dir p.trimmed.getLast?.toList := by
  rw [dirKey, hfault, homeKey, ← enterFrom_append, List.append_assoc, dropLast_append_toList]
  -- empty parts at the end are taken off in the one and not in the other
  apply enterFrom_congr
  rw [words_append, words_append, words_trimmed]

theorem isDirAt_of_homeKey {p : Path} {dir : FileKey} (h : fs.homeKey p = .ok dir) :
    fs.IsDirAt dir :=
  isDirAt_of_enterFrom h

/-- A single name enters a directory if it is not too long and one stands there. -/
private theorem enterFrom_single {dir : FileKey} (hdir : fs.IsDirAt dir) {name : FileName}
    (hname : innerComponent? name = some (.name name)) :
    fs.enterFrom dir [name] =
      if isTooLong name then .error .nameTooLong else fs.stay (dir ++ [name]) := by
  obtain ⟨hv, hd, -⟩ := innerComponent?_eq_name_iff.1 hname
  have hstep : keyStep fs.kindAt? dir name =
      if isTooLong name then .error .nameTooLong
      else if (fs.kindAt? (dir ++ [name])).isSome then .ok (dir ++ [name])
      else .error .notFound := by
    simp only [keyStep, kindAt?_eq_true_iff.2 hdir, hv, hd, Bool.false_eq_true, if_false]
  -- the step goes to the name if anything stands there, and to stay asks for a directory
  rw [enterFrom, keyFrom_cons, hstep]
  split
  · rfl
  · cases hkind : fs.kindAt? (dir ++ [name]) with
    | none =>
      rw [stay, hkind]
      rfl
    | some b => rfl

/-- A name for what is to be created is one that a directory can hold. -/
private theorem placeName?_eq_some {p : Path} {name : FileName} (h : placeName? p = some name) :
    p.trimmed.getLast? = some name ∧ innerComponent? name = some (.name name) := by
  obtain ⟨hlast, hdots⟩ := Option.filter_eq_some_iff.1 h
  have hne : name ≠ [] := by
    -- empty parts at the end have been taken off
    rintro rfl
    rw [trimmed, List.getLast?_reverse] at hlast
    have hhead := List.head?_dropWhile_not (fun seg : FileName => decide (seg = []))
      p.segments.reverse
    rw [hlast] at hhead
    simp at hhead
  simp only [ne_eq, decide_not, Bool.and_eq_true, Bool.not_eq_true',
    decide_eq_false_iff_not] at hdots
  refine ⟨hlast, ?_⟩
  rw [innerComponent?, if_neg (by simp [isVoid, hne, hdots.1]), if_neg hdots.2]

/-- A path without such a name leads to a directory if what is before its end does. -/
private theorem exists_dirKey_of_placeName? {p : Path} {dir : FileKey}
    (hfault : pathFault? p = none) (hhome : fs.homeKey p = .ok dir) (h : placeName? p = none) :
    ∃ key, fs.dirKey p = .ok key := by
  have hdir := isDirAt_of_homeKey hhome
  rw [dirKey_eq hfault, hhome]
  show ∃ key, fs.enterFrom dir p.trimmed.getLast?.toList = .ok key
  cases hlast : p.trimmed.getLast? with
  | none => exact ⟨dir, stay_of_isDirAt hdir⟩
  | some last =>
    rw [placeName?, hlast, Option.filter_eq_none_iff] at h
    have hlast := h last rfl
    simp only [ne_eq, decide_not, Bool.and_eq_true, Bool.not_eq_true', decide_eq_false_iff_not,
      not_and, not_not] at hlast
    -- a dot stays in the directory, and a double dot goes up from it
    by_cases hdot : last = FileName.dot
    · rw [Option.toList_some, enterFrom_cons_of_isVoid (by rw [hdot]; rfl)]
      exact ⟨dir, stay_of_isDirAt hdir⟩
    · rw [hlast hdot, Option.toList_some, enterFrom, keyFrom_cons, keyStep,
        kindAt?_eq_true_iff.2 hdir]
      exact ⟨_, stay_of_isDirAt (hdir.of_prefix (List.dropLast_prefix dir))⟩

/-- What a path with a name for what is to be created leads to. -/
private theorem dirKey_of_placeName? {p : Path} {dir : FileKey} {name : FileName}
    (hfault : pathFault? p = none) (hhome : fs.homeKey p = .ok dir)
    (h : placeName? p = some name) :
    fs.dirKey p = if isTooLong name then .error .nameTooLong else fs.stay (dir ++ [name]) := by
  obtain ⟨hlast, hname⟩ := placeName?_eq_some h
  rw [dirKey_eq hfault, hhome, hlast]
  exact enterFrom_single (isDirAt_of_homeKey hhome) hname

/-- Whether a fault is what is left of another one when nothing is missing any more: a path can come
    to a file on the way where a file stood at its end. -/
def Recurs (e x : IoFault) : Prop :=
  x = e ∨ e = .alreadyExists ∧ x = .notDirectory

/-- How making a directory and entering it compare. What can be made is missing; what cannot is
    there or cannot be entered, for much the same reason. -/
theorem makeKey_cases (fs : FileSystem) (p : Path) :
    (fs.makeKey p = .error .alreadyExists ∧ ∃ key, fs.dirKey p = .ok key) ∨
    (∃ e x, fs.makeKey p = .error e ∧ fs.dirKey p = .error x ∧ Recurs e x) ∨
    ∃ dir name, fs.makeKey p = .ok (dir ++ [name]) ∧ fs.dirKey p = .error .notFound ∧
      fs.homeKey p = .ok dir ∧ placeName? p = some name := by
  -- in the order of the checks: the text of the path, the directory around it, its last name
  cases hfault : pathFault? p with
  | some e =>
    refine .inr (.inl ⟨e, e, ?_, ?_, .inl rfl⟩)
    · rw [makeKey, hfault]
    · rw [dirKey, hfault]
  | none =>
    cases hhome : fs.homeKey p with
    | error e =>
      refine .inr (.inl ⟨e, e, ?_, ?_, .inl rfl⟩)
      · simp only [makeKey, hfault, hhome]
      · rw [dirKey_eq hfault, hhome]
        rfl
    | ok dir =>
      cases hplace : placeName? p with
      | none =>
        refine .inl ⟨?_, exists_dirKey_of_placeName? hfault hhome hplace⟩
        simp only [makeKey, hfault, hhome, hplace]
      | some name =>
        simp only [makeKey, hfault, hhome, hplace, dirKey_of_placeName? hfault hhome hplace]
        by_cases hlong : isTooLong name = true
        · simp only [hlong, if_true]
          exact .inr (.inl ⟨_, _, rfl, rfl, .inl rfl⟩)
        · simp only [hlong, stay]
          cases hkind : fs.kindAt? (dir ++ [name]) with
          | none => exact .inr (.inr ⟨dir, name, rfl, rfl, rfl, rfl⟩)
          | some b =>
            cases b with
            | true => exact .inl ⟨rfl, _, rfl⟩
            | false =>
              -- a file is in the place: making a directory there is one fault, entering it another
              exact .inr (.inl ⟨_, _, rfl, rfl, .inr ⟨rfl, rfl⟩⟩)

/-! ## What is there already -/

/-- A directory that was entered can be entered again. -/
private theorem Keeps.enterFrom_eq_ok (h : Keeps fs t) {key key' : FileKey} {segs : List FileName}
    (hkey : fs.enterFrom key segs = .ok key') : t.enterFrom key segs = .ok key' := by
  obtain ⟨last, hlast, hstay⟩ := ok_of_bind hkey
  obtain ⟨rfl, hdir⟩ := stay_eq_ok hstay
  rw [enterFrom, h.keyFrom_eq_ok hlast]
  exact stay_of_isDirAt (h.dirs _ hdir)

/-- The directory in which something was created is found again. -/
theorem Keeps.homeKey_eq_ok (h : Keeps fs t) {p : Path} {dir : FileKey}
    (hdir : fs.homeKey p = .ok dir) : t.homeKey p = .ok dir := by
  rw [homeKey, h.startKey_eq]
  exact h.enterFrom_eq_ok hdir

/-- A path that enters a directory has no fault. -/
theorem pathFault?_of_dirKey {p : Path} {key : FileKey} (h : fs.dirKey p = .ok key) :
    pathFault? p = none := by
  unfold dirKey at h
  split at h
  · cases h
  · assumption

/-- The directory that a path names is found again. -/
theorem Keeps.dirKey_eq_ok (h : Keeps fs t) {p : Path} {key : FileKey}
    (hkey : fs.dirKey p = .ok key) : t.dirKey p = .ok key := by
  have hfault := pathFault?_of_dirKey hkey
  rw [dirKey, hfault] at hkey ⊢
  rw [h.startKey_eq]
  exact h.enterFrom_eq_ok hkey

/-- A directory is made unless it can be entered. -/
theorem ensureDir_eq (p : Path) : fs.ensureDir p =
    match fs.dirKey p with
    | .ok _ => .ok fs
    | .error _ => fs.makeDir p := by
  rw [ensureDir, makeDir_eq]
  rcases fs.makeKey_cases p with ⟨hmake, key, hdir⟩ | ⟨e, x, hmake, hdir, -⟩ |
    ⟨dir, name, hmake, hdir, -⟩
  · rw [hmake, hdir]
    exact if_pos ((isDir_iff p).2 ⟨key, hdir⟩)
  · rw [hmake, hdir]
    -- a directory under the path could be entered
    refine if_neg fun hisDir => ?_
    obtain ⟨key, hkey⟩ := (isDir_iff p).1 hisDir
    rw [hdir] at hkey
    cases hkey
  · rw [hmake, hdir]
    rfl

/-- Nothing is made where a directory can be entered. -/
theorem ensureDir_of_dirKey {p : Path} {key : FileKey} (h : fs.dirKey p = .ok key) :
    fs.ensureDir p = .ok fs := by
  rw [ensureDir_eq, h]

/-- A directory that was made can be entered. -/
private theorem exists_dirKey_of_ensureDir {p : Path} (h : fs.ensureDir p = .ok fs') :
    ∃ key, fs'.dirKey p = .ok key := by
  have hgrows := grows_ensureDir h
  rw [ensureDir_eq] at h
  rcases fs.makeKey_cases p with ⟨-, key, hdir⟩ | ⟨e, x, hmake, hdir, -⟩ |
    ⟨dir, name, hmake, hdir, hhome, hplace⟩
  · rw [hdir] at h
    cases h
    exact ⟨key, hdir⟩
  · rw [hdir, makeDir_eq, hmake] at h
    cases h
  · rw [hdir, makeDir_eq, hmake] at h
    obtain rfl := (Except.ok.inj h).symm
    obtain ⟨_, _, -, hfault, -, hplace', hlong, -⟩ := makeKey_eq_ok hmake
    rw [hplace] at hplace'
    cases hplace'
    -- the directory that was just made is the one to be entered
    have hnew : (fs.putDir (dir ++ [name]) []).IsDirAt (dir ++ [name]) := by
      have hput := FileTree.at?_put_append fs.tree (.dir []) (dir ++ [name]) []
      rw [List.append_nil] at hput
      exact ⟨[], hput⟩
    rw [dirKey_of_placeName? hfault (hgrows.keeps.homeKey_eq_ok hhome) hplace, hlong]
    exact ⟨_, stay_of_isDirAt hnew⟩

section

variable {p : Path} {above : List Path} {e : IoFault}

/-- A missing directory is a matter of those above it; any other fault is final. -/
private theorem ensureDirs_of_fault (hunits : p.units ≠ []) (hfound : e ≠ .notFound)
    (h : fs.ensureDir p = .error e) : fs.ensureDirs (p :: above) = (fs, some e) := by
  rw [ensureDirs, if_neg hunits, h]
  cases e <;> first | rfl | exact absurd rfl hfound

/-- If the directories above cannot be made, their fault is the fault. -/
private theorem ensureDirs_of_above_fails (hunits : p.units ≠ [])
    (hmissing : fs.ensureDir p = .error .notFound) (habove : fs.ensureDirs above = (fs', some e)) :
    fs.ensureDirs (p :: above) = (fs', some e) := by
  rw [ensureDirs, if_neg hunits, hmissing]
  simp only [habove]

/-- A missing directory is made once those above it are. -/
theorem ensureDirs_of_above_made (hunits : p.units ≠ [])
    (hmissing : fs.ensureDir p = .error .notFound) (habove : fs.ensureDirs above = (t, none))
    (hmade : t.ensureDir p = .ok fs') : fs.ensureDirs (p :: above) = (fs', none) := by
  rw [ensureDirs, if_neg hunits, hmissing]
  simp only [habove, hmade]

/-- What cannot be made below the directories above fails with its own fault. -/
private theorem ensureDirs_of_below_fails (hunits : p.units ≠ [])
    (hmissing : fs.ensureDir p = .error .notFound) (habove : fs.ensureDirs above = (fs', none))
    (hfail : fs'.ensureDir p = .error e) : fs.ensureDirs (p :: above) = (fs', some e) := by
  rw [ensureDirs, if_neg hunits, hmissing]
  simp only [habove, hfail]

/-- Where a directory was made, this was done at once, or after those above it. -/
theorem ensureDirs_cons_eq_none (h : fs.ensureDirs (p :: above) = (fs', none)) :
    p.units = [] ∧ fs' = fs ∨
    p.units ≠ [] ∧ (fs.ensureDir p = .ok fs' ∨
      ∃ t, fs.ensureDir p = .error .notFound ∧ fs.ensureDirs above = (t, none) ∧
        t.ensureDir p = .ok fs') := by
  rw [ensureDirs] at h
  split at h
  · rename_i hunits
    cases h
    exact .inl ⟨hunits, rfl⟩
  · rename_i hunits
    -- the cases of the recursion: made, missing, or failed for another reason
    refine .inr ⟨hunits, ?_⟩
    split at h
    · rename_i hmade
      cases h
      exact .inl hmade
    · rename_i hmissing
      split at h
      · cases h
      · rename_i habove
        split at h
        · rename_i hmade
          cases h
          exact .inr ⟨_, hmissing, habove, hmade⟩
        · cases h
    · cases h

/-- Where a directory was not made, this failed at once, above it, or after those above it. -/
private theorem ensureDirs_cons_eq_some (h : fs.ensureDirs (p :: above) = (fs', some e)) :
    p.units ≠ [] ∧ (fs.ensureDir p = .error e ∧ e ≠ .notFound ∧ fs' = fs ∨
      fs.ensureDir p = .error .notFound ∧ (fs.ensureDirs above = (fs', some e) ∨
        fs.ensureDirs above = (fs', none) ∧ fs'.ensureDir p = .error e)) := by
  rw [ensureDirs] at h
  split at h
  · cases h
  · rename_i hunits
    refine ⟨hunits, ?_⟩
    split at h
    · cases h
    · rename_i hmissing
      refine .inr ⟨hmissing, ?_⟩
      split at h
      · rename_i habove
        cases h
        exact .inl habove
      · rename_i habove
        split at h
        · cases h
        · rename_i hfail
          cases h
          exact .inr ⟨habove, hfail⟩
    · rename_i hfound hfail
      cases h
      exact .inl ⟨hfail, fun he => hfound (by rw [← he]), rfl⟩

end

/-- Directories that were made can be entered. -/
private theorem exists_dirKey_of_ensureDirs {p : Path} {above : List Path}
    (h : fs.ensureDirs (p :: above) = (fs', none)) :
    p.units = [] ∨ ∃ key, fs'.dirKey p = .ok key := by
  obtain ⟨hunits, -⟩ | ⟨-, hmade | ⟨_, -, -, hmade⟩⟩ := ensureDirs_cons_eq_none h
  · exact .inl hunits
  · exact .inr (exists_dirKey_of_ensureDir hmade)
  · exact .inr (exists_dirKey_of_ensureDir hmade)

/-- Nothing is made where the first of the directories can be entered. -/
private theorem ensureDirs_of_dirKey {p : Path} (above : List Path)
    (h : p.units = [] ∨ ∃ key, t.dirKey p = .ok key) : t.ensureDirs (p :: above) = (t, none) := by
  rw [ensureDirs]
  split
  · rfl
  · obtain ⟨key, hkey⟩ := h.resolve_left ‹_›
    rw [ensureDir_of_dirKey hkey]

/-- Directories that were made are not made again. -/
private theorem ensureDirs_again {ps : List Path} (h : fs.ensureDirs ps = (fs', none))
    (hk : Keeps fs' t) :
    t.ensureDirs ps = (t, none) := by
  cases ps with
  | nil => rfl
  | cons p above =>
    apply ensureDirs_of_dirKey
    exact (exists_dirKey_of_ensureDirs h).imp_right fun ⟨key, hkey⟩ => ⟨key, hk.dirKey_eq_ok hkey⟩

/-- Directories that were made are not made again. -/
theorem createDirs_again {p : Path} (h : fs.createDirs p = (fs', none)) (hk : Keeps fs' t) :
    t.createDirs p = (t, none) :=
  ensureDirs_again h hk

/-! ## What fails again -/

/-- If a directory is not made, it cannot be entered either, for much the same reason. -/
theorem ensureDir_eq_error {p : Path} {e : IoFault} (h : fs.ensureDir p = .error e) :
    fs.makeKey p = .error e ∧ ∃ x, fs.dirKey p = .error x ∧ Recurs e x := by
  rw [ensureDir_eq] at h
  rcases fs.makeKey_cases p with ⟨-, key, hdir⟩ | ⟨e', x, hmake, hdir, hrecurs⟩ |
    ⟨dir, name, hmake, hdir, -⟩
  · rw [hdir] at h
    cases h
  · rw [hdir, makeDir_eq, hmake] at h
    cases h
    exact ⟨hmake, x, hdir, hrecurs⟩
  · rw [hdir, makeDir_eq, hmake] at h
    cases h

/-- If a directory can be neither made nor entered, the fault is that of making it. -/
theorem ensureDir_of_error {p : Path} {e x : IoFault} (hmake : fs.makeKey p = .error e)
    (hdir : fs.dirKey p = .error x) : fs.ensureDir p = .error e := by
  rw [ensureDir_eq, hdir, makeDir_eq, hmake]
  rfl

/-- A beginning of a path without faults has none. -/
theorem pathFault?_of_isPrefix {p q : Path} (hfault : pathFault? p = none)
    (hpre : q.units <+: p.units) (hq : q.units ≠ []) : pathFault? q = none := by
  obtain ⟨rest, hrest⟩ := hpre
  have hlength : FileName.byteLength q.units ≤ FileName.byteLength p.units := by
    rw [← hrest, FileName.byteLength, FileName.byteLength]
    -- the bytes of the beginning are among those of the path
    generalize q.units = us
    induction us with
    | nil => exact Nat.zero_le _
    | cons u us ih => exact Nat.add_le_add_left ih _
  unfold pathFault? at hfault ⊢
  split at hfault
  · cases hfault
  · rename_i hnul
    split at hfault
    · cases hfault
    · split at hfault
      · cases hfault
      · rename_i hlong
        rw [if_neg, if_neg hq, if_neg (by omega)]
        intro hmem
        apply hnul
        rw [← hrest]
        simp only [List.contains_eq_mem, decide_eq_true_eq] at hmem ⊢
        exact List.mem_append_left _ hmem

/-- A path that is not empty and still names nothing has no fault of its own. -/
private theorem pathFault?_of_notFound {p : Path} (hunits : p.units ≠ [])
    (h : fs.ensureDir p = .error .notFound) : pathFault? p = none := by
  obtain ⟨hmake, -⟩ := ensureDir_eq_error h
  cases hfault : pathFault? p with
  | none => rfl
  | some e =>
    rw [makeKey, hfault] at hmake
    obtain rfl := Except.error.inj hmake
    simp only [pathFault?, hunits, if_false] at hfault
    split at hfault
    · cases hfault
    · split at hfault <;> cases hfault

/-- The words before the end of a path go on from those of its parent. -/
private theorem exists_words_trimmed {p q : Path} (h : q.IsParent p) :
    ∃ rest, words p.trimmed.dropLast = words q.segments ++ rest := by
  rw [h.words, ← words_trimmed]
  obtain hnil | ⟨init, last, hinit⟩ : p.trimmed = [] ∨ ∃ init last, p.trimmed = init ++ [last] := by
    rcases List.eq_nil_or_concat p.trimmed with hnil | ⟨init, last, hinit⟩
    · exact .inl hnil
    · exact .inr ⟨init, last, by rwa [List.concat_eq_append] at hinit⟩
  · exact ⟨[], by rw [hnil]; rfl⟩
  · rw [hinit, List.dropLast_concat]
    -- a dot at the end is no word, so the front has the words of the whole path
    by_cases hv : isVoid last = true
    · have hwords : words (init ++ [last]) = words init := by
        rw [words_append]
        simp [words, hv]
      rw [hwords]
      exact ⟨_, (dropLast_append_toList _).symm⟩
    · rw [words_concat (by simpa using hv), List.dropLast_concat]
      exact ⟨[], (List.append_nil _).symm⟩

/-- Below a directory that cannot be entered, for the same reason nothing can be made. -/
private theorem errors_of_parent {p q : Path} {x : IoFault} (h : q.IsParent p)
    (hfault : pathFault? p = none) (hq : pathFault? q = none) (hx : fs.dirKey q = .error x) :
    fs.ensureDir p = .error x ∧ fs.dirKey p = .error x := by
  have hhome : fs.homeKey p = .error x := by
    obtain ⟨rest, hrest⟩ := exists_words_trimmed h
    have henter : fs.enterFrom [] (fs.startKey q ++ q.segments) = .error x := by
      rw [dirKey, hq] at hx
      exact hx
    calc fs.homeKey p
        = fs.enterFrom [] (words (fs.startKey p ++ p.trimmed.dropLast)) :=
          (enterFrom_words _ _).symm
      _ = fs.enterFrom [] (words (fs.startKey q ++ q.segments) ++ rest) := by
          rw [words_append, words_append, hrest, startKey_congr h.isAbsolute, List.append_assoc]
      _ = .error x := by
          rw [enterFrom_append, enterFrom_words, henter]
          rfl
  have hdir : fs.dirKey p = .error x := by
    rw [FileSystem.dirKey_eq hfault, hhome]
    rfl
  refine ⟨ensureDir_of_error ?_ hdir, hdir⟩
  simp only [makeKey, hfault, hhome]

/-- The paths that are tried upwards are the path itself and those of its parent. -/
private theorem upwards_succ (count : Nat) (p : Path) :
    ∃ above, upwards (count + 1) p = p :: above ∧
    (above = [] ∨ ∃ q, p.parent? = some q ∧ above = upwards count q) := by
  rw [upwards]
  cases hq : p.parent? with
  | none => exact ⟨[], rfl, .inl rfl⟩
  | some q => exact ⟨_, rfl, .inr ⟨q, rfl, rfl⟩⟩

/-- What was made before a failure is enough for the next attempt to fail at once, or to come to the
    same failure. Where it fails, the path cannot be entered either. -/
private theorem ensureDirs_upwards_again (count : Nat) {p : Path} {e : IoFault}
    (h : fs.ensureDirs (upwards count p) = (fs', some e)) :
    p.units ≠ [] ∧ ∃ e', fs'.ensureDirs (upwards count p) = (fs', some e') ∧ Recurs e e' ∧
      ∃ x, fs'.dirKey p = .error x ∧ (Recurs e x ∨ x = .notFound) := by
  induction count generalizing p with
  | zero => cases h
  | succ count ih =>
    obtain ⟨above, habove, hparent⟩ := upwards_succ count p
    rw [habove] at h ⊢
    -- it failed at once, or above, or after those above were made
    obtain ⟨hunits, ⟨hfail, -, rfl⟩ | ⟨hmissing, hfail | ⟨hmade, hfail⟩⟩⟩ :=
      ensureDirs_cons_eq_some h
    · obtain ⟨-, x, hdir, hrecurs⟩ := ensureDir_eq_error hfail
      exact ⟨hunits, e, h, .inl rfl, x, hdir, .inl hrecurs⟩
    · -- the directory above could not be made
      obtain rfl | ⟨q, hq, rfl⟩ := hparent
      · cases hfail
      · obtain ⟨hunits', e', hagain, hrecurs, x, hx, hrecurs'⟩ := ih hfail
        have hfault := pathFault?_of_notFound hunits hmissing
        have hq := isParent_of_parent? hq hunits'
        obtain ⟨hensure, hdir⟩ :=
          errors_of_parent hq hfault (pathFault?_of_isPrefix hfault hq.units hunits') hx
        by_cases hx' : x = .notFound
        · -- it is still missing, and fails to be made once more
          subst hx'
          exact ⟨hunits, e', ensureDirs_of_above_fails hunits hensure hagain, hrecurs, _, hdir,
            .inr rfl⟩
        · exact ⟨hunits, x, ensureDirs_of_fault hunits hx' hensure, hrecurs'.resolve_right hx', x,
            hdir, hrecurs'⟩
    · -- the directory above is there now, and the same fault comes again
      obtain ⟨-, x, hdir, hrecurs⟩ := ensureDir_eq_error hfail
      refine ⟨hunits, e, ?_, .inl rfl, x, hdir, .inl hrecurs⟩
      by_cases hfound : e = .notFound
      · subst hfound
        exact ensureDirs_of_below_fails hunits hfail (ensureDirs_again hmade (.refl _)) hfail
      · exact ensureDirs_of_fault hunits hfound hfail

/-- Making directories that failed fails again, and makes nothing. -/
theorem createDirs_fails_again {p : Path} {e : IoFault} (h : fs.createDirs p = (fs', some e)) :
    ∃ e', fs'.createDirs p = (fs', some e') ∧ Recurs e e' := by
  obtain ⟨-, e', hagain, hrecurs, -⟩ := ensureDirs_upwards_again _ h
  exact ⟨e', hagain, hrecurs⟩

end IconCompiler.FileSystem
