/-!
# Binary floating-point numbers

Numbers of at most 53 binary digits with an exponent from -1074 to 971, which is what 64 bits hold.
Signs are kept apart. Every operation gives the number nearest to the exact result, of two nearest
ones the one with an even last digit.
-/

namespace IconCompiler.Decimal

/-- The number `mantissa * 2 ^ exponent`. -/
structure Binary64 where
  mantissa : Nat
  exponent : Int
  deriving Repr, DecidableEq

namespace Binary64

/-- The number zero. -/
def zero : Binary64 := ⟨0, -1074⟩

/-- The number as a quotient. -/
def ratio (x : Binary64) : Nat × Nat :=
  if 0 ≤ x.exponent then (x.mantissa * Nat.pow 2 x.exponent.toNat, 1)
  else (x.mantissa, Nat.pow 2 (-x.exponent).toNat)

/-- The integer nearest to a quotient, of two the even one. -/
def roundDiv (num den : Nat) : Nat :=
  let low := num / den
  let rest := num % den
  if 2 * rest < den then low
  else if den < 2 * rest then low + 1
  else if low % 2 = 0 then low else low + 1

/-- A quotient divided by a power of two. -/
def shiftRatio (num den : Nat) (exponent : Int) : Nat × Nat :=
  if 0 ≤ exponent then (num, den * Nat.pow 2 exponent.toNat)
  else (num * Nat.pow 2 (-exponent).toNat, den)

/-- The exponent at which a quotient that is not zero has 53 digits before the point, or the least
    exponent there is. -/
def exponentOf (num den : Nat) : Int :=
  let e := (Nat.log2 num : Int) - (Nat.log2 den : Int) - 53
  -- the quotient has 53 digits before the point now, or one more
  let p := shiftRatio num den e
  max (-1074) (if p.1 / p.2 < Nat.pow 2 53 then e else e + 1)

/-- The number nearest to a quotient, unless that is too large. -/
def ofRatio (num den : Nat) : Option Binary64 :=
  if num = 0 then some zero
  else
    let e := exponentOf num den
    let p := shiftRatio num den e
    let m := roundDiv p.1 p.2
    -- rounding up can bring one digit more
    let x : Binary64 := if m = Nat.pow 2 53 then ⟨Nat.pow 2 52, e + 1⟩ else ⟨m, e⟩
    if x.exponent ≤ 971 then some x else none

/-- The number nearest to a natural number. -/
def ofNat (n : Nat) : Option Binary64 :=
  ofRatio n 1

/-- The product of two numbers. -/
def mul (x y : Binary64) : Option Binary64 :=
  ofRatio (x.ratio.1 * y.ratio.1) (x.ratio.2 * y.ratio.2)

/-- The quotient of two numbers. -/
def div (x y : Binary64) : Option Binary64 :=
  ofRatio (x.ratio.1 * y.ratio.2) (x.ratio.2 * y.ratio.1)

/-- The number nearest to a power of ten. -/
def tenPow (k : Nat) : Option Binary64 :=
  ofNat (Nat.pow 10 k)

/-- A number times a power of ten. The power is taken as a number of its own, by which `x` is
    multiplied or divided; where it is too small for that, `x` is divided by powers that are not,
    at most `steps` times. -/
def scale (x : Binary64) (exponent : Int) : (steps : Nat) → Option Binary64
  | 0 => some zero
  | steps + 1 =>
    if x.mantissa = 0 then some zero
    else if exponent < -308 then
      match (tenPow 308).bind x.div with
      | some y => scale y (exponent + 308) steps
      | none => none
    else if exponent < 0 then (tenPow (-exponent).toNat).bind x.div
    else if exponent ≤ 308 then (tenPow exponent.toNat).bind x.mul
    else none

/-- The number that `digits * 10 ^ exponent` is read as, unless it is too large. -/
def ofDigits (digits : Nat) (exponent : Int) : Option Binary64 :=
  (ofNat digits).bind fun x => x.scale exponent 4

end Binary64

end IconCompiler.Decimal
