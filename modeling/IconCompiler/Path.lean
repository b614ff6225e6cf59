import IconCompiler.Text.Utf8

/-!
# Paths

A path is a text in which a slash parts names. It may hold bytes that are no text, as file names
do; those are kept, shown as replacement characters, and equal only to themselves.

The text of a path is never normalized. `components` gives its meaning: repeated slashes and inner
or trailing dots say nothing, a leading dot and double dots are components of their own.
-/

namespace IconCompiler

/-- One element of a path's text. -/
inductive PathUnit where
  /-- A character. -/
  | char (c : Char)
  /-- Bytes that are no part of a text. -/
  | stray (bytes : List UInt8)
  deriving Repr, DecidableEq, Inhabited

/-- The name of a file or directory. -/
abbrev FileName := List PathUnit

namespace FileName

/-- The name with the given text. -/
def ofChars (cs : List Char) : FileName :=
  cs.map .char

/-- The text of a name that holds nothing but text. -/
def text? : FileName → Option (List Char)
  | [] => some []
  | .char c :: rest => (text? rest).map (c :: ·)
  | .stray _ :: _ => none

/-- The name as it is shown: stray bytes appear as the replacement character. -/
def display (n : FileName) : List Char :=
  n.map fun
    | .char c => c
    | .stray _ => '\uFFFD'

/-- How many bytes a unit takes. -/
def unitSize : PathUnit → Nat
  | .char c => c.utf8Size
  | .stray bytes => bytes.length

/-- How many bytes the name takes. -/
def byteLength (n : FileName) : Nat :=
  n.foldr (fun u k => unitSize u + k) 0

/-- The name of the current directory. -/
def dot : FileName := [.char '.']

/-- The name of the parent directory. -/
def dotDot : FileName := [.char '.', .char '.']

/-- The name before its last dot, if there is a dot and something before it. -/
def beforeLastDot? (n : FileName) : Option FileName :=
  match (n.reverse.dropWhile (· ≠ .char '.')) with
  | [] => none
  | [_] => none
  | _ :: front => some front.reverse

/-- The name without its extension. A name whose only dot is its first character has none. -/
def stem (n : FileName) : FileName :=
  (beforeLastDot? n).getD n

end FileName

/-- A path as it was given. -/
structure Path where
  units : List PathUnit
  deriving Repr, DecidableEq, Inhabited

/-- A component of a path. -/
inductive PathComponent where
  /-- The root directory. -/
  | root
  /-- A dot at the front of a relative path. -/
  | current
  /-- A double dot. -/
  | parent
  | name (n : FileName)
  deriving Repr, DecidableEq

namespace Path

/-- The unit that parts names. -/
def slash : PathUnit := .char '/'

/-- The path with the given text. -/
def ofString (s : String) : Path :=
  ⟨s.toList.map .char⟩

/-- The units of a byte sequence; `skip` bytes still belong to the unit read last. -/
def unitsFrom : Nat → List UInt8 → List PathUnit
  | _, [] => []
  | skip + 1, _ :: rest => unitsFrom skip rest
  | 0, b :: rest =>
    match Text.Utf8.step b rest with
    | .char c size => .char c :: unitsFrom (size - 1) rest
    | .invalid size => .stray ((b :: rest).take size) :: unitsFrom (size - 1) rest
    | .cut => [.stray (b :: rest)]

/-- The path with the given bytes. -/
def ofBytes (bytes : List UInt8) : Path :=
  ⟨unitsFrom 0 bytes⟩

/-- The path as it is shown. -/
def display (p : Path) : String :=
  String.ofList (FileName.display p.units)

/-- The path without text. -/
def empty : Path := ⟨[]⟩

/-- The path of the current directory. -/
def dot : Path := ⟨FileName.dot⟩

/-- The parts of a text between slashes; there is one more than there are slashes. -/
def splitUnits : List PathUnit → List FileName
  | [] => [[]]
  | u :: us =>
    if u = slash then [] :: splitUnits us
    else
      match splitUnits us with
      | [] => [[u]]
      | s :: rest => (u :: s) :: rest

/-- The parts of a path's text between slashes. -/
def segments (p : Path) : List FileName :=
  splitUnits p.units

/-- The path whose text has the given parts between slashes. -/
def ofSegments (segs : List FileName) : Path :=
  ⟨[slash].intercalate segs⟩

/-- Whether a path starts at the root directory. -/
def isAbsolute (p : Path) : Bool :=
  p.units.head? = some slash

/-- Whether a part between slashes says nothing. -/
def isVoid (seg : FileName) : Bool :=
  seg = [] || seg = FileName.dot

/-- The component that a part between slashes stands for, unless it says nothing. -/
def innerComponent? (seg : FileName) : Option PathComponent :=
  if isVoid seg then none
  else if seg = FileName.dotDot then some .parent
  else some (.name seg)

/-- The component at the front of a path, if it is one that only the front can have. -/
def leading? (p : Path) : Option PathComponent :=
  if p.isAbsolute then some .root
  else if p.segments.head? = some FileName.dot then some .current
  else none

/-- The components of a path. -/
def components (p : Path) : List PathComponent :=
  p.leading?.toList ++ p.segments.filterMap innerComponent?

/-- Only parts that name nothing, such as the empty one, are no components inside a path. -/
theorem innerComponent?_eq_none_iff (seg : FileName) :
    innerComponent? seg = none ↔ isVoid seg = true := by
  unfold innerComponent?
  split
  · simp_all
  · split <;> simp_all

/-- A dot inside a path is no component: it counts at the front only. -/
theorem innerComponent?_ne_current (seg : FileName) : innerComponent? seg ≠ some .current := by
  unfold innerComponent?
  split
  · simp
  · split <;> simp

/-- The first character of a path, if it is no slash, starts the first part. -/
theorem segments_cons {u : PathUnit} (h : u ≠ slash) (us : List PathUnit) :
    ∃ s rest, segments ⟨u :: us⟩ = (u :: s) :: rest := by
  simp only [segments, splitUnits, if_neg h]
  split
  · exact ⟨[], [], rfl⟩
  · exact ⟨_, _, rfl⟩

/-- The name that a path ends with, if its last component is one. -/
def fileName? (p : Path) : Option FileName :=
  match p.components.getLast? with
  | some (.name n) => some n
  | _ => none

/-- A list without the parts at its end that say nothing. -/
def trimVoid (segs : List FileName) : List FileName :=
  (segs.reverse.dropWhile isVoid).reverse

/-- The path without its last component. The root directory and the path without text have no
    parent. -/
def parent? (p : Path) : Option Path :=
  match p.components.getLast? with
  | none | some .root => none
  | some _ =>
    match p.segments with
    | [] => none
    | front :: segs =>
      match trimVoid segs with
      -- `front` is the last component itself
      | [] => some empty
      | segs' =>
        -- the last part is a component; void parts before it go with it
        match front, trimVoid segs'.dropLast with
        | [], [] => some ⟨[slash]⟩
        | _, segs'' => some (ofSegments (front :: segs''))

/-- At most `count` paths, each the parent of the one before it. -/
def upwards : (count : Nat) → Path → List Path
  | 0, _ => []
  | count + 1, p =>
    match p.parent? with
    | none => [p]
    | some q => p :: upwards count q

/-- A path, its parent, the parent of that and so on. -/
def ancestors (p : Path) : List Path :=
  upwards (p.components.length + 1) p

/-- The path `q` seen from the directory `p`. Nothing but a slash between the two is added, and an
    absolute path stays as it is. -/
def join (p q : Path) : Path :=
  if q.isAbsolute then q
  else if p.units = [] || p.units.getLast? = some slash then ⟨p.units ++ q.units⟩
  else ⟨p.units ++ slash :: q.units⟩

/-- A component as it is written. -/
def componentUnits : PathComponent → List PathUnit
  | .root => [slash]
  | .current => FileName.dot
  | .parent => FileName.dotDot
  | .name n => n

/-- The components of a path below the directory `root`, or all of them if it does not lie below. -/
def relativeComponents (p root : Path) : List PathComponent :=
  if root.components.isPrefixOf p.components then p.components.drop root.components.length
  else p.components

/-- The text of a path relative to the directory `root`, with its components parted by slashes. A
    root component is written as a slash of its own. -/
def relativeText (p root : Path) : String :=
  let parts := (p.relativeComponents root).filter (· ≠ .current)
  String.ofList (['/'].intercalate (parts.map fun c => FileName.display (componentUnits c)))

end Path

end IconCompiler
