/-!
# Number literals

A style value is written bare if it is a decimal number that module code takes for one: no leading
zero stands before another digit.
-/

namespace IconCompiler.Style

/-- A text without the sign at its front. -/
def dropSign : List Char → List Char
  | '+' :: cs => cs
  | '-' :: cs => cs
  | cs => cs

/-- Whether a text is empty or an exponent: `e`, an optional sign and at least one digit. -/
def isExponentPart : List Char → Bool
  | [] => true
  | c :: cs =>
    (c = 'e' || c = 'E') && !(dropSign cs).isEmpty && (dropSign cs).all Char.isDigit

/-- Whether a text is a decimal number without a sign: digits with a point before, after or between
    them, and an optional exponent. -/
def isUnsignedDecimal (cs : List Char) : Bool :=
  let whole := cs.takeWhile Char.isDigit
  match cs.dropWhile Char.isDigit with
  | '.' :: rest =>
    let fraction := rest.takeWhile Char.isDigit
    !(whole.isEmpty && fraction.isEmpty) && isExponentPart (rest.dropWhile Char.isDigit)
  | rest => !whole.isEmpty && isExponentPart rest

/-- Whether a zero is followed by another digit at the front, signs aside. -/
def hasLeadingZero (cs : List Char) : Bool :=
  match cs.dropWhile fun c => c = '-' || c = '+' with
  | '0' :: c :: _ => c.isDigit
  | _ => false

/-- Whether a text is a decimal number with an optional sign and without a leading zero. -/
def isNumberLiteral (cs : List Char) : Bool :=
  !hasLeadingZero cs && isUnsignedDecimal (dropSign cs)

end IconCompiler.Style
