/-!
# Locations in a source text

A byte offset is shown as a line and a column, both counted from one. Only the line feed ends a
line, and columns count characters.
-/

namespace IconCompiler

/-- A place in a source text, with the file that holds the text if it is known. -/
structure Location where
  file : Option String
  line : Nat
  column : Nat
  deriving Repr, DecidableEq

namespace Location

/-- Walks over the characters that end within the next `budget` bytes and gives the line and column
    reached from `line` and `column`. -/
def walk : List Char → (budget line column : Nat) → Nat × Nat
  | [], _, line, column => (line, column)
  | c :: cs, budget, line, column =>
    if c.utf8Size ≤ budget then
      if c = '\n' then walk cs (budget - c.utf8Size) (line + 1) 1
      else walk cs (budget - c.utf8Size) line (column + 1)
    else (line, column)

/-- The location of a byte offset: an offset inside a character counts as the start of that
    character, one past the end as the end. -/
def ofOffset (text : String) (offset : Nat) : Location :=
  let (line, column) := walk text.toList offset 1 1
  ⟨none, line, column⟩

/-- The location in the named file. -/
def inFile (loc : Location) (file : String) : Location :=
  { loc with file := some file }

/-- `file:line:column`, or `line:column` if no file is known. -/
def render (loc : Location) : String :=
  let place := toString loc.line ++ ":" ++ toString loc.column
  match loc.file with
  | some file => file ++ ":" ++ place
  | none => place

end Location

end IconCompiler
