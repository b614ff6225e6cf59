import IconCompiler.FileSystem
import IconCompiler.Glob.Matching

/-!
# Walking a file system along a pattern

The paths that a pattern matches are found component by component. A literal component is joined to
the path if that names something; any other one is matched with the names in a directory. The
current directory, from which relative patterns start, is not written in front of names.

Listing a directory does not fail here. A system refuses to list one whose path has 4096 bytes or
more, and the search ends with that fault; here the search goes on below such a directory, and what
it finds there is no file, since no path of this length names one.
-/

namespace IconCompiler.Glob

/-- Whether items match the name that a path ends with. Names that are no text match nothing. -/
def matchesFileName (items : List Token) (name : FileName) : Bool :=
  match name.text? with
  | some cs => matchName items cs
  | none => false

/-- Whether a path is the current directory: a dot at its front, and no part that says more. -/
def isCurrent (p : Path) : Bool :=
  p.units.head? = some (.char '.') && p.segments.all Path.isVoid

/-- A path is taken for the current directory exactly if a dot is its only component. -/
theorem isCurrent_iff (p : Path) : isCurrent p = true ↔ p.components = [.current] := by
  obtain ⟨_ | ⟨u, us⟩⟩ := p
  · decide
  · by_cases hu : u = Path.slash
    · subst hu
      simp [isCurrent, Path.components, Path.leading?, Path.isAbsolute, Path.slash]
    · obtain ⟨s, rest, hs⟩ := Path.segments_cons hu us
      have hleading : Path.leading? ⟨u :: us⟩ =
          if u :: s = FileName.dot then some .current else none := by
        simp [Path.leading?, Path.isAbsolute, hu, hs]
      by_cases hd : u :: s = FileName.dot
      · have hhead : some u = some (.char '.') := by cases hd; rfl
        have hin : Path.innerComponent? FileName.dot = none := by decide
        have hvoid : Path.isVoid FileName.dot = true := by decide
        rw [isCurrent, Path.components, hleading, if_pos hd, hs, hd, List.head?_cons, hhead]
        simp [hin, hvoid, Path.innerComponent?_eq_none_iff]
      · have hne : Path.components ⟨u :: us⟩ ≠ [.current] := fun h => by
          rw [Path.components, hleading, if_neg hd, Option.toList_none, List.nil_append] at h
          have hmem : PathComponent.current ∈ (Path.segments ⟨u :: us⟩).filterMap
              Path.innerComponent? := h ▸ List.mem_singleton_self _
          obtain ⟨seg, _, hseg⟩ := List.mem_filterMap.1 hmem
          exact Path.innerComponent?_ne_current seg hseg
        have hvoid : Path.isVoid (u :: s) = false := by
          simpa [Path.isVoid] using hd
        simp [isCurrent, hs, hvoid, hne]

/-- A name seen from a directory, without the current directory in front. -/
def extend (p : Path) (name : FileName) : Path :=
  if isCurrent p then ⟨name⟩ else p.join ⟨name⟩

/-- Whether a literal component can follow a directory: a dot and a double dot after any directory,
    a name where it names something. -/
def admits (fs : FileSystem) (p : Path) (name : FileName) : Bool :=
  if name = FileName.dot || name = FileName.dotDot then fs.isDir p
  else fs.contains (extend p name)

/-- Dot and double dot, as far as items match them. Only items that start with a dot do. -/
def specialNames (items : List Token) : List FileName :=
  if items.head? = some (.char '.') then
    [FileName.dot, FileName.dotDot].filter (matchesFileName items)
  else []

/-- The entries of a directory and of the directories in it, however deep, with their names. -/
def entriesBelow (fs : FileSystem) (p : Path) : List (Path × FileName) :=
  match fs.find? p with
  | some t => (t.listing extend p).map fun e => (e.1, e.2.1)
  | none => []

/-- Whether a component matches a name that is found in a directory. -/
def Part.matchesName (part : Part) (name : FileName) : Bool :=
  match part with
  | .literal cs => name = FileName.ofChars cs
  | .wild items => matchesFileName items name
  | .directories => false

/-- The paths that components match, seen from a path. -/
def walk (fs : FileSystem) : List Part → Path → List Path
  | [], p => [p]
  | .literal cs :: rest, p =>
    if admits fs p (FileName.ofChars cs) then walk fs rest (extend p (FileName.ofChars cs)) else []
  | .wild items :: rest, p =>
    if fs.isDir p then
      -- dot and double dot are no entries of a directory; they are joined even to the current one
      ((fs.children p).filter (matchesFileName items)).flatMap
          (fun n => walk fs rest (extend p n)) ++
        (specialNames items).flatMap fun n => walk fs rest (p.join ⟨n⟩)
    else []
  -- at the end of a pattern, any directories are directories
  | [.directories], p => ((entriesBelow fs p).map Prod.fst).filter fs.isDir
  | .directories :: .directories :: rest, p => walk fs (.directories :: rest) p
  -- no directory, or some: in either case the next component is looked for below
  | .directories :: part :: rest, p =>
    ((entriesBelow fs p).filter fun e => part.matchesName e.2).flatMap fun e => walk fs rest e.1

/-- Where the paths of a pattern start. -/
def Pattern.start (pattern : Pattern) : Path :=
  if pattern.absolute then ⟨[Path.slash]⟩ else .dot

/-- The paths that a pattern matches. A path that it matches in several ways is listed several
    times. -/
def Pattern.paths (pattern : Pattern) (fs : FileSystem) : List Path :=
  (walk fs pattern.parts pattern.start).filter fun p => !pattern.onlyDirs || fs.isDir p

end IconCompiler.Glob
