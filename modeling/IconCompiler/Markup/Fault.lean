import IconCompiler.Location
import IconCompiler.Text.Utf8

/-!
# What can be wrong with a source

A fault is a cause; its wording is given by `message`. A `SourceError` is a fault with the place at
which it was found.
-/

namespace IconCompiler.Markup

/-- What is wrong with the attributes of a tag. Positions count bytes from the character after the
    opening angle bracket. -/
inductive AttributeFault where
  /-- No equals sign follows the key. -/
  | missingEquals (position : Nat)
  /-- The key at `position` was given before, at `earlier`. -/
  | duplicate (position earlier : Nat)
  /-- The tag ends after the equals sign. -/
  | missingValue (position : Nat)
  /-- The value does not start with a quote. -/
  | unquotedValue (position : Nat)
  /-- The quote that opens the value does not occur again. -/
  | missingQuote (position : Nat) (quote : Char)
  deriving Repr, DecidableEq

/-- The wording of a fault. -/
def AttributeFault.message : AttributeFault → String
  | .missingEquals p =>
    "position " ++ toString p ++ ": attribute key must be directly followed by `=` or space"
  | .duplicate p j =>
    "position " ++ toString p ++ ": duplicated attribute, previous declaration at position " ++
      toString j
  | .missingValue p =>
    "position " ++ toString p ++ ": `=` must be followed by an attribute value"
  | .unquotedValue p =>
    "position " ++ toString p ++ ": attribute value must be enclosed in `\"` or `'`"
  | .missingQuote p q =>
    "position " ++ toString p ++ ": missing closing quote `" ++ q.toString ++
      "` in attribute value"

/-- What is wrong with a numeric character reference. -/
inductive ReferenceFault where
  /-- The digits start with a sign. -/
  | signed
  /-- There are no digits. -/
  | noDigits
  /-- Some character is no digit. -/
  | badDigit
  /-- The number needs more than 32 bits. -/
  | tooLarge
  /-- The number is zero. -/
  | zero
  /-- The number is no code point of a character. -/
  | notACharacter (code : Nat)
  deriving Repr, DecidableEq

/-- The wording of a fault. -/
def ReferenceFault.message : ReferenceFault → String
  | .signed => "unexpected number sign"
  | .noDigits => "cannot parse integer from empty string"
  | .badDigit => "invalid digit found in string"
  | .tooLarge => "number too large to fit in target type"
  | .zero => "0x0 character is not permitted in XML"
  | .notACharacter code => "`" ++ toString code ++ "` is not a valid codepoint"

/-- What is wrong with an entity in an attribute value. Positions count bytes of the value. -/
inductive EntityFault where
  /-- No semicolon ends the entity that starts at `start`; the value has `size` bytes. -/
  | unterminated (start size : Nat)
  /-- The name between `start` and `stop` is not known. -/
  | unrecognized (start stop : Nat) (name : String)
  /-- A numeric reference is faulty. -/
  | reference (fault : ReferenceFault)
  deriving Repr, DecidableEq

/-- The wording of a fault. -/
def EntityFault.message : EntityFault → String
  | .unterminated start size =>
    "Error while escaping character at range " ++ toString start ++ ".." ++ toString size ++
      ": Cannot find ';' after '&'"
  | .unrecognized start stop name =>
    "at " ++ toString start ++ ".." ++ toString stop ++ ": unrecognized entity `" ++ name ++ "`"
  | .reference fault => "invalid character reference: " ++ fault.message

/-- What is wrong with a piece of markup. -/
inductive Fault where
  /-- A tag has no closing angle bracket. -/
  | tagNotClosed
  /-- An exclamation mark opens neither a comment nor a CDATA section nor a document type. -/
  | unknownMarkup
  | commentNotClosed
  | cdataNotClosed
  | doctypeNotClosed
  | doctypeWithoutName
  | instructionNotClosed
  /-- A closing tag names another element than the innermost open one. -/
  | mismatchedClose (expected found : String)
  /-- A closing tag stands where no element is open. -/
  | unmatchedClose (found : String)
  /-- A closing tag has no element to close. -/
  | closeWithoutOpen
  /-- The source ends inside an element. -/
  | unclosedElement (tag : String)
  | attribute (fault : AttributeFault)
  | entity (fault : EntityFault)
  /-- A fault that a caller words itself. -/
  | custom (text : String)
  deriving Repr, DecidableEq

/-- The wording of a fault. -/
def Fault.message : Fault → String
  | .tagNotClosed => "syntax error: tag not closed: `>` not found before end of input"
  | .unknownMarkup => "syntax error: unknown or missed symbol in markup"
  | .commentNotClosed => "syntax error: comment not closed: `-->` not found before end of input"
  | .cdataNotClosed => "syntax error: CDATA not closed: `]]>` not found before end of input"
  | .doctypeNotClosed => "syntax error: DOCTYPE not closed: `>` not found before end of input"
  | .doctypeWithoutName =>
    "ill-formed document: `<!DOCTYPE>` declaration does not contain a name of a document type"
  | .instructionNotClosed =>
    "syntax error: processing instruction or xml declaration not closed: `?>` not found before " ++
      "end of input"
  | .mismatchedClose expected found =>
    "ill-formed document: expected `</" ++ expected ++ ">`, but `</" ++ found ++ ">` was found"
  | .unmatchedClose found =>
    "ill-formed document: close tag `</" ++ found ++ ">` does not match any open tag"
  | .closeWithoutOpen => "closing tag without an open element"
  | .unclosedElement tag => "unclosed element <" ++ tag ++ ">"
  | .attribute fault => fault.message
  | .entity fault => fault.message
  | .custom text => text

/-- Why a source could not be compiled, and where. -/
inductive SourceError where
  /-- The markup is faulty. -/
  | parse (fault : Fault) (location : Location)
  /-- The bytes of the markup are not UTF-8. -/
  | encoding (fault : Text.Utf8.Fault) (location : Location)
  deriving Repr, DecidableEq

namespace SourceError

/-- A fault found at a byte offset of a text. -/
def atOffset (fault : Fault) (text : String) (offset : Nat) : SourceError :=
  .parse fault (Location.ofOffset text offset)

/-- Where the error was found. -/
def location : SourceError → Location
  | .parse _ loc | .encoding _ loc => loc

/-- The error with its location in the named file. -/
def inFile : SourceError → String → SourceError
  | .parse fault loc, file => .parse fault (loc.inFile file)
  | .encoding fault loc, file => .encoding fault (loc.inFile file)

/-- The full wording: kind, place and cause. -/
def message : SourceError → String
  | .parse fault loc => "Parse error at " ++ loc.render ++ ": " ++ fault.message
  | .encoding fault loc => "Encoding error at " ++ loc.render ++ ": " ++ fault.message

end SourceError

end IconCompiler.Markup
