import IconCompiler.Naming
import IconCompiler.OrderedMap
import IconCompiler.Style.Declaration
import IconCompiler.Style.NumberLiteral

/-!
# Styles

The declarations of a `style` attribute as a map from style-object keys to values, and that map
written as the body of an object literal.
-/

namespace IconCompiler

/-- The value of a declaration. -/
inductive StyleValue where
  /-- A text, which is written between quotes. -/
  | text (s : String)
  /-- A number literal, which is written bare. -/
  | number (s : String)
  deriving Repr, DecidableEq, Inhabited

/-- Style-object keys with their values, in the order of their first declaration. -/
abbrev StyleMap := OrderedMap String StyleValue

namespace Style

open IconCompiler.Text

/-- The value that a trimmed text stands for. -/
def valueOf (cs : List Char) : StyleValue :=
  if isNumberLiteral cs then .number (String.ofList cs) else .text (String.ofList cs)

/-- The key and value of a declaration. A text without a colon, or with nothing before it, declares
    nothing. -/
def declarationEntry? (cs : List Char) : Option (String × StyleValue) :=
  match cutAtColon cs with
  | none => none
  | some (name, value) =>
    if isBlank name then none
    else some (String.ofList (Naming.stylePropertyChars (trim name)), valueOf (trim value))

/-- The entries that a style text declares, in order and with repetitions. -/
def declaredEntries (cs : List Char) : List (String × StyleValue) :=
  (splitDeclarations cs).filterMap declarationEntry?

/-- Reads a style text: a key that is declared again keeps its position and takes the new value. -/
def read (text : String) : StyleMap :=
  OrderedMap.ofList (declaredEntries text.toList)

/-- A text between double quotes; quotes and backslashes inside get a backslash. -/
def quote (cs : List Char) : List Char :=
  '"' :: cs.flatMap (fun c => if c = '"' || c = '\\' then ['\\', c] else [c]) ++ ['"']

/-- A key as it is written: bare if it is an identifier, else quoted. -/
def renderKey (key : String) : List Char :=
  if Naming.isIdentifier key.toList then key.toList else quote key.toList

/-- A value as it is written: a text quoted, a number bare. -/
def renderValue : StyleValue → List Char
  | .text s => quote s.toList
  | .number s => s.toList

/-- An entry as it is written, with the comma and space that end it. -/
def renderEntry (e : String × StyleValue) : List Char :=
  renderKey e.1 ++ [':', ' '] ++ renderValue e.2 ++ [',', ' ']

/-- The characters of the body of an object literal with the entries of a style. -/
def renderChars (style : StyleMap) : List Char :=
  style.entries.flatMap renderEntry

/-- The body of an object literal with the entries of a style. -/
def render (style : StyleMap) : String :=
  String.ofList (renderChars style)

end Style

end IconCompiler
