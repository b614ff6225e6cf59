import IconCompiler.Proofs.FileSystem.Contents

/-!
# Where joined paths lead

A path seen from a directory goes on from where the directory's own path leads. A single part then
stays there, goes up, or enters an entry of the directory.

## Key results

- `wayTo_join`: a joined path goes on from the first one
- `LeadsTo.exists_of_join`: where a single part leads
-/

namespace IconCompiler.FileSystem

open IconCompiler.Path

variable {fs : FileSystem}

/-- An empty part does not matter if another part follows. -/
private theorem resolveFrom_append_void {a b : List FileName} (hb : b ≠ []) (trail : Trail) :
    fs.resolveFrom trail (a ++ [] :: b) = fs.resolveFrom trail (a ++ b) := by
  rw [resolveFrom_append, resolveFrom_append]
  congr
  funext trail
  exact resolveFrom_void_cons rfl hb trail

/-- A path seen from a directory goes on from where the directory's path leads. -/
theorem wayTo_join {p q : Path} (hq : q.isAbsolute = false) :
    fs.wayTo (p.join q) = (fs.wayTo p).bind fun trail => fs.resolveFrom trail q.segments := by
  have hne : q.segments ≠ [] := splitUnits_ne_nil q.units
  rw [wayTo, wayTo, ← resolveFrom_append]
  by_cases hp : p.units = []
  · have hrel : p.isAbsolute = false := by
      rw [isAbsolute, hp]
      rfl
    have hsegs : p.segments = [[]] := by
      rw [segments, hp]
      rfl
    rw [join_of_units_eq_nil hp, startKey_congr (hq.trans hrel.symm), hsegs, List.append_assoc]
    exact (resolveFrom_append_void hne []).symm
  · rw [segments_join hp hq, startKey_congr (isAbsolute_join hp hq)]
    -- a slash at the end of the directory's path leaves an empty part between the two
    by_cases hslash : p.units.getLast? = some slash
    · obtain ⟨hsegs, -⟩ := segments_of_ends_slash hslash
      rw [hsegs, ← List.append_assoc, ← List.append_assoc, List.append_assoc _ [[]]]
      exact (resolveFrom_append_void hne []).symm
    · rw [bodySegments, if_neg hslash, List.append_assoc]

/-- The key that a part leads to, seen from a directory. -/
def keyAfter (dir : FileKey) (seg : FileName) : FileKey :=
  if isVoid seg then dir else if seg = FileName.dotDot then dir.dropLast else dir ++ [seg]

/-- One step of a resolution changes the key as the part says. -/
private theorem keyOf_resolveSegment {trail trail' : Trail} {seg : FileName}
    (h : fs.resolveSegment trail seg = .ok trail') :
    keyOf trail' = keyAfter (keyOf trail) seg := by
  obtain ⟨es, -, ⟨hv, rfl⟩ | ⟨rfl, rfl⟩ | ⟨hname, t, -, rfl⟩⟩ := resolveSegment_eq_ok h
  · rw [keyAfter, if_pos hv]
  · rw [keyOf_tail]
    rfl
  · obtain ⟨hv, hd, -⟩ := innerComponent?_eq_name_iff.1 hname
    rw [keyOf_cons, keyAfter, if_neg (by simp [hv]), if_neg hd]

/-- A part without slashes leads on from a directory. -/
theorem LeadsTo.exists_of_join {p : Path} {seg : FileName} {k : FileKey} (hseg : slash ∉ seg)
    (h : fs.LeadsTo (p.join ⟨seg⟩) k) :
    ∃ dir, fs.LeadsTo p dir ∧ fs.IsDirAt dir ∧ k = keyAfter dir seg := by
  have hrel : isAbsolute ⟨seg⟩ = false := by
    rw [isAbsolute, decide_eq_false_iff_not]
    exact fun hhead => hseg (List.mem_of_head? hhead)
  have hsegs : segments ⟨seg⟩ = [seg] := splitUnits_of_not_mem hseg
  obtain ⟨trail, hway, rfl⟩ := h
  -- the way of the directory, and one step from there
  rw [wayTo_join hrel, hsegs] at hway
  obtain ⟨trail₁, hp, hrest⟩ := ok_of_bind hway
  rw [resolveFrom_cons] at hrest
  obtain ⟨trail₂, hstep, hend⟩ := ok_of_bind hrest
  obtain rfl := Except.ok.inj hend
  obtain ⟨es, hes, -⟩ := resolveSegment_eq_ok hstep
  have hdir := isDirAt_of_treeAt (isWay_of_resolveFrom .root hp) hes
  exact ⟨keyOf trail₁, ⟨trail₁, hp, rfl⟩, hdir, keyOf_resolveSegment hstep⟩

end IconCompiler.FileSystem
