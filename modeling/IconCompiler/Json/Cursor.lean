import IconCompiler.Text.Quoted

/-!
# Reading JSON: positions and faults

A JSON text is read from a cursor, which knows the rest of the text and how much of it was taken.
A fault has a cause and the line and column up to which the text was taken; columns count bytes and
are zero right after a line feed.
-/

namespace IconCompiler.Json

/-- A value that was found where another one was expected. -/
inductive Found where
  | null
  | boolean (b : Bool)
  | natural (n : Nat)
  /-- The number `-n`. -/
  | negative (n : Nat)
  /-- A floating-point number, as it is written. -/
  | float (text : String)
  | string (s : String)
  | sequence
  | map
  deriving Repr, DecidableEq

/-- How a value is named in a message. -/
def Found.message : Found → String
  | .null => "null"
  | .boolean b => "boolean `" ++ toString b ++ "`"
  | .natural n => "integer `" ++ toString n ++ "`"
  | .negative n => "integer `-" ++ toString n ++ "`"
  | .float text => "floating point `" ++ text ++ "`"
  | .string s => "string " ++ Text.showQuoted s
  | .sequence => "sequence"
  | .map => "map"

/-- What can be wrong with a JSON text. -/
inductive Cause where
  | endOfValue
  | endOfList
  | endOfObject
  | endOfString
  | expectedValue
  | expectedWord
  | expectedColon
  | expectedListEnd
  | expectedObjectEnd
  | trailingCharacters
  | trailingComma
  | keyNotString
  | invalidNumber
  | numberOutOfRange
  | invalidEscape
  | loneSurrogate
  | unfinishedPair
  | controlCharacter
  | missingField (name : String)
  | duplicateField (name : String)
  | invalidType (found : Found) (expected : String)
  | invalidValue (found : Found) (expected : String)
  | invalidLength (length : Nat) (expected : String)
  deriving Repr, DecidableEq

/-- The wording of a cause. -/
def Cause.message : Cause → String
  | .endOfValue => "EOF while parsing a value"
  | .endOfList => "EOF while parsing a list"
  | .endOfObject => "EOF while parsing an object"
  | .endOfString => "EOF while parsing a string"
  | .expectedValue => "expected value"
  | .expectedWord => "expected ident"
  | .expectedColon => "expected `:`"
  | .expectedListEnd => "expected `,` or `]`"
  | .expectedObjectEnd => "expected `,` or `\x7d`"
  | .trailingCharacters => "trailing characters"
  | .trailingComma => "trailing comma"
  | .keyNotString => "key must be a string"
  | .invalidNumber => "invalid number"
  | .numberOutOfRange => "number out of range"
  | .invalidEscape => "invalid escape"
  | .loneSurrogate => "lone leading surrogate in hex escape"
  | .unfinishedPair => "unexpected end of hex escape"
  | .controlCharacter => "control character (\\u0000-\\u001F) found while parsing a string"
  | .missingField name => "missing field `" ++ name ++ "`"
  | .duplicateField name => "duplicate field `" ++ name ++ "`"
  | .invalidType found expected => "invalid type: " ++ found.message ++ ", expected " ++ expected
  | .invalidValue found expected => "invalid value: " ++ found.message ++ ", expected " ++ expected
  | .invalidLength length expected =>
    "invalid length " ++ toString length ++ ", expected " ++ expected

/-- How much of a text was taken: the line, and the bytes taken of it. -/
structure Position where
  line : Nat
  column : Nat
  deriving Repr, DecidableEq

namespace Position

/-- Nothing taken. -/
def start : Position := ⟨1, 0⟩

/-- The position after one more character. -/
def after (p : Position) (c : Char) : Position :=
  if c = '\n' then ⟨p.line + 1, 0⟩ else ⟨p.line, p.column + c.utf8Size⟩

/-- The position after the first byte of a text, if it has one. -/
def afterByte (p : Position) : List Char → Position
  | [] => p
  | c :: _ => if c = '\n' then ⟨p.line + 1, 0⟩ else ⟨p.line, p.column + 1⟩

/-- The position after a text. -/
def afterAll (p : Position) (cs : List Char) : Position :=
  cs.foldl after p

end Position

/-- What is wrong with a JSON text, and up to where it was taken. -/
structure Fault where
  cause : Cause
  position : Position
  deriving Repr, DecidableEq

/-- The wording of a fault. -/
def Fault.message (f : Fault) : String :=
  f.cause.message ++ " at line " ++ toString f.position.line ++ " column " ++
    toString f.position.column

/-- A place in a JSON text. -/
structure Cursor where
  rest : List Char
  position : Position

/-- The cursor at the start of a text. -/
def Cursor.ofText (text : String) : Cursor :=
  ⟨text.toList, .start⟩

/-- A reader takes a piece of a text. -/
abbrev Reader := StateT Cursor (Except Fault)

namespace Reader

/-- A fault after what was taken. -/
def fail {α : Type} (cause : Cause) : Reader α :=
  fun cur => .error ⟨cause, cur.position⟩

/-- A fault at the next byte, which is counted. -/
def failNext {α : Type} (cause : Cause) : Reader α :=
  fun cur => .error ⟨cause, cur.position.afterByte cur.rest⟩

/-- The next character, which is not taken. -/
def peek : Reader (Option Char) :=
  fun cur => .ok (cur.rest.head?, cur)

/-- Takes the next character. -/
def advance : Reader Unit :=
  fun cur =>
    match cur.rest with
    | [] => .ok ((), cur)
    | c :: cs => .ok ((), ⟨cs, cur.position.after c⟩)

/-- Takes the longest text whose characters pass a test. -/
def takeWhile (p : Char → Bool) : Reader (List Char) :=
  fun cur =>
    let cs := cur.rest.takeWhile p
    .ok (cs, ⟨cur.rest.dropWhile p, cur.position.afterAll cs⟩)

/-- Whether a character is JSON white space. -/
def isSpace (c : Char) : Bool :=
  c = ' ' || c = '\n' || c = '\t' || c = '\r'

/-- The next character that is no white space; the white space before it is taken. -/
def peekToken : Reader (Option Char) := do
  let _ ← takeWhile isSpace
  peek

/-- Takes the rest of a word whose first character was taken. -/
def word : List Char → Reader Unit
  | [] => pure ()
  | c :: cs => do
    match ← peek with
    | none => fail .endOfValue
    | some d =>
      if d = c then
        advance
        word cs
      else failNext .expectedWord

end Reader

end IconCompiler.Json
