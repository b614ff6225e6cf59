import IconCompiler.Decimal.Shortest
import IconCompiler.Json.Cursor

/-!
# Numbers in JSON

Whole numbers of up to 64 bits are kept exactly. All others are floating-point numbers: the digits
that fit into 64 bits count, and the exponent says how many were left out.
-/

namespace IconCompiler.Json

open IconCompiler.Decimal

/-- A number that was read. -/
inductive Number where
  | natural (n : Nat)
  /-- The number `-n`, which is not zero. -/
  | negative (n : Nat)
  | float (negative : Bool) (x : Binary64)
  deriving Repr, DecidableEq

/-- The number as it is named in a message. -/
def Number.found : Number → Found
  | .natural n => .natural n
  | .negative n => .negative n
  | .float minus x => .float (x.render minus)

/-- The value of a decimal digit. -/
def digitValue (c : Char) : Nat :=
  c.toNat - '0'.toNat

/-- The number that digits spell after `n`, as long as it has at most 64 bits, and how many digits
    were used and left out. -/
def significand (n : Nat) : List Char → Nat × Nat × Nat
  | [] => (n, 0, 0)
  | d :: ds =>
    if n * 10 + digitValue d < Nat.pow 2 64 then
      let (m, used, left) := significand (n * 10 + digitValue d) ds
      (m, used + 1, left)
    else (n, 0, ds.length + 1)

namespace Reader

/-- The floating-point number `digits * 10 ^ exponent`. -/
def floatOf (negative : Bool) (digits : Nat) (exponent : Int) : Reader Number :=
  match Binary64.ofDigits digits exponent with
  | some x => pure (.float negative x)
  | none => fail .numberOutOfRange

/-- Takes the digits of an exponent, up to the one with which it no longer fits into 32 bits. -/
def exponentDigits (n : Nat) : List Char → Reader (Option Nat)
  | [] => pure (some n)
  | d :: ds => do
    advance
    if n * 10 + digitValue d < Nat.pow 2 31 then exponentDigits (n * 10 + digitValue d) ds
    else return none

/-- Takes an exponent, whose letter comes next, of a number with the given digits. -/
def exponentPart (negative : Bool) (digits : Nat) (exponent : Int) : Reader Number := do
  advance
  let sign ← peek
  if sign = some '+' || sign = some '-' then advance
  match ← peek with
  | none => fail .endOfValue
  | some c =>
    if c.isDigit then
      let ds := (← get).rest.takeWhile Char.isDigit
      match ← exponentDigits 0 ds with
      | some n => floatOf negative digits (if sign = some '-' then exponent - n else exponent + n)
      | none =>
        -- the exponent is too long to matter: the number is zero or too large
        if digits ≠ 0 && sign ≠ some '-' then fail .numberOutOfRange
        else
          let _ ← takeWhile Char.isDigit
          return .float negative .zero
    else failNext .invalidNumber

/-- Takes what follows the digits of a floating-point number. -/
def afterFraction (negative : Bool) (digits : Nat) (exponent : Int) : Reader Number := do
  let next ← peek
  if next = some 'e' || next = some 'E' then exponentPart negative digits exponent
  else floatOf negative digits exponent

/-- Takes a fraction, whose point comes next. -/
def fractionPart (negative : Bool) (digits : Nat) (exponent : Int) : Reader Number := do
  advance
  let ds ← takeWhile Char.isDigit
  if ds.isEmpty then
    match ← peek with
    | some _ => failNext .invalidNumber
    | none => fail .endOfValue
  else
    let (digits', used, _) := significand digits ds
    afterFraction negative digits' (exponent - used)

/-- The whole number with the given digits. -/
def wholeNumber (negative : Bool) (n : Nat) : Reader Number :=
  if negative then
    if 0 < n && n ≤ Nat.pow 2 63 then pure (.negative n) else floatOf true n 0
  else pure (.natural n)

/-- Takes what follows the whole digits of a number, of which `left` were left out. -/
def afterWhole (negative : Bool) (n left : Nat) : Reader Number := do
  let next ← peek
  if next = some '.' then fractionPart negative n left
  else if left = 0 && next ≠ some 'e' && next ≠ some 'E' then wholeNumber negative n
  else afterFraction negative n left

/-- Takes a number without its sign. A zero at its front has no digit behind it. -/
def unsigned (negative : Bool) : Reader Number := do
  match ← peek with
  | none => fail .endOfValue
  | some c =>
    if c = '0' then
      advance
      match ← peek with
      | some d => if d.isDigit then failNext .invalidNumber else afterWhole negative 0 0
      | none => afterWhole negative 0 0
    else if c.isDigit then
      let ds ← takeWhile Char.isDigit
      let (n, _, left) := significand 0 ds
      afterWhole negative n left
    else failNext .invalidNumber

/-- Takes a number, whose first digit or sign comes next. -/
def number : Reader Number := do
  if (← peek) = some '-' then
    advance
    unsigned true
  else unsigned false

/-- Passes over the exponent of a number, whose letter comes next. -/
def skipExponent : Reader Unit := do
  advance
  let sign ← peek
  if sign = some '+' || sign = some '-' then advance
  let ds ← takeWhile Char.isDigit
  if ds.isEmpty then failNext .invalidNumber

/-- Passes over a number without its sign. Its size does not matter. -/
def skipUnsigned : Reader Unit := do
  match ← peek with
  | none => failNext .invalidNumber
  | some c =>
    if c = '0' then
      advance
      match ← peek with
      | some d => if d.isDigit then failNext .invalidNumber
      | none => pure ()
    else if c.isDigit then
      let _ ← takeWhile Char.isDigit
    else failNext .invalidNumber
  if (← peek) = some '.' then
    advance
    let ds ← takeWhile Char.isDigit
    if ds.isEmpty then failNext .invalidNumber
  let next ← peek
  if next = some 'e' || next = some 'E' then skipExponent

/-- Passes over a number, whose first digit or sign comes next. -/
def skipNumber : Reader Unit := do
  if (← peek) = some '-' then advance
  skipUnsigned

end Reader

end IconCompiler.Json
