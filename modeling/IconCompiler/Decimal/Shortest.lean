import IconCompiler.Decimal.Binary64

/-!
# Shortest decimals

A floating-point number is written with the fewest digits that are read back as the same number; of
several such decimals the nearest one is taken.
-/

namespace IconCompiler.Decimal

/-- The decimal `digits * 10 ^ exponent`. -/
structure Scaled where
  digits : Nat
  exponent : Int
  deriving Repr, DecidableEq

/-- The bounds between which decimals are read as `x`, and `x` itself, all three as numerators over
    one denominator. -/
def readInterval (x : Binary64) : Nat × Nat × Nat × Nat :=
  let (num, den) := Binary64.ratio ⟨1, x.exponent⟩
  -- below a power of two the numbers lie twice as close
  let below := if x.mantissa = Nat.pow 2 52 && -1074 < x.exponent then 1 else 2
  ((4 * x.mantissa - below) * num, 4 * x.mantissa * num, (4 * x.mantissa + 2) * num, 4 * den)

/-- Whether a decimal lies between the bounds of `x`; the bounds count if the last binary digit of
    `x` is even. -/
def readsAs (x : Binary64) (d : Scaled) : Bool :=
  let (low, _, high, den) := readInterval x
  let num := d.digits * den * Nat.pow 10 d.exponent.toNat
  let unit := Nat.pow 10 (-d.exponent).toNat
  if x.mantissa % 2 = 0 then low * unit ≤ num && num ≤ high * unit
  else low * unit < num && num < high * unit

/-- The power of ten that is not above a quotient, which is not zero. -/
def tenExponent (num den : Nat) : Int :=
  if den ≤ num then (Nat.toDigits 10 (num / den)).length - 1
  else
    let k := (Nat.toDigits 10 (den / num)).length
    if den ≤ num * Nat.pow 10 (k - 1) then -(k - 1 : Int) else -(k : Int)

/-- The decimals next to `x` whose last digit counts `10 ^ exponent`, the nearer one first. -/
def neighbours (x : Binary64) (exponent : Int) : List Scaled :=
  let (_, num, _, den) := readInterval x
  let n := num * Nat.pow 10 (-exponent).toNat
  let d := den * Nat.pow 10 exponent.toNat
  let near := Binary64.roundDiv n d
  let low := n / d
  [⟨near, exponent⟩, ⟨if near = low then low + 1 else low, exponent⟩]

/-- The decimal without a zero at the end of its digits, if there is one. -/
def Scaled.dropZero (d : Scaled) : Scaled :=
  if d.digits % 10 = 0 then ⟨d.digits / 10, d.exponent + 1⟩ else d

/-- The shortest decimal of a number that is not zero, searched for from `count` digits on. A number
    just below a power of ten may be met as ten units of the digit below. -/
def shortestFrom (x : Binary64) (top : Int) (count : Nat) : (steps : Nat) → Scaled
  -- seventeen digits tell any two numbers apart, so the search does not come to this
  | 0 => ⟨x.mantissa, 0⟩
  | steps + 1 =>
    match (neighbours x (top - count + 1)).find? (readsAs x) with
    | some d => d.dropZero
    | none => shortestFrom x top (count + 1) steps

/-- The shortest decimal of a number that is not zero. -/
def shortest (x : Binary64) : Scaled :=
  let (_, num, _, den) := readInterval x
  shortestFrom x (tenExponent num den) 1 17

/-- How a floating-point number is written: with a point from 0.00001 up to 16 digits before the
    point, else with an exponent. A number with a point has a digit on both sides of it. -/
def Scaled.render (d : Scaled) : String :=
  let digits := Nat.toDigits 10 d.digits
  let point := (digits.length : Int) + d.exponent
  if 0 ≤ d.exponent && point ≤ 16 then
    String.ofList (digits ++ List.replicate d.exponent.toNat '0' ++ ['.', '0'])
  else if 0 < point && point ≤ 16 then
    String.ofList (digits.take point.toNat ++ ['.'] ++ digits.drop point.toNat)
  else if -5 < point && point ≤ 0 then
    String.ofList (['0', '.'] ++ List.replicate (-point).toNat '0' ++ digits)
  else
    let fraction := if digits.length = 1 then [] else '.' :: digits.tail
    String.ofList (digits.take 1 ++ fraction ++ ['e']) ++ toString (point - 1)

/-- The text of a floating-point number. -/
def Binary64.render (negative : Bool) (x : Binary64) : String :=
  (if negative then "-" else "") ++
    if x.mantissa = 0 then "0.0" else (shortest x).render

end IconCompiler.Decimal
