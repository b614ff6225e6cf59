/-!
# Decoding UTF-8

Bytes are read one scalar value at a time. Where they are no UTF-8, the longest start of a valid
sequence, or a single byte, is taken out: either it cannot be continued by the byte that follows,
or the bytes end inside it.
-/

namespace IconCompiler.Text.Utf8

/-- What the next bytes are. -/
inductive Step where
  /-- A whole character. -/
  | char (c : Char) (size : Nat)
  /-- Bytes that start no character: how many of them make up the fault. -/
  | invalid (size : Nat)
  /-- The start of a character, cut off by the end of the bytes. -/
  | cut
  deriving Repr, DecidableEq

/-- How a sequence goes on after its first byte: how many bytes follow, and the range of the first
    of them. The ranges leave out overlong forms, surrogates and code points that do not exist. -/
def leadRange (b : Nat) : Option (Nat × Nat × Nat) :=
  if 0xC2 ≤ b && b ≤ 0xDF then some (1, 0x80, 0xBF)
  else if b = 0xE0 then some (2, 0xA0, 0xBF)
  else if b = 0xED then some (2, 0x80, 0x9F)
  else if 0xE1 ≤ b && b ≤ 0xEF then some (2, 0x80, 0xBF)
  else if b = 0xF0 then some (3, 0x90, 0xBF)
  else if 0xF1 ≤ b && b ≤ 0xF3 then some (3, 0x80, 0xBF)
  else if b = 0xF4 then some (3, 0x80, 0x8F)
  else none

/-- The bits that the first byte of a sequence with `tail` further bytes gives. -/
def leadBits (b tail : Nat) : Nat :=
  b % (if tail = 1 then 0x20 else if tail = 2 then 0x10 else 0x08)

/-- Reads `owed` more bytes of a sequence of which `taken` bytes, worth `value`, were read; the
    next one has to lie between `low` and `high`. -/
def tailStep (value taken owed low high : Nat) : List UInt8 → Step
  | rest =>
    match owed, rest with
    | 0, _ => .char (Char.ofNat value) taken
    | _ + 1, [] => .cut
    | owed + 1, b :: rest =>
      if low ≤ b.toNat && b.toNat ≤ high then
        tailStep (value * 0x40 + b.toNat % 0x40) (taken + 1) owed 0x80 0xBF rest
      else .invalid taken

/-- Reads the character at the front of `b :: rest`. -/
def step (b : UInt8) (rest : List UInt8) : Step :=
  if b.toNat < 0x80 then .char (Char.ofNat b.toNat) 1
  else
    match leadRange b.toNat with
    | none => .invalid 1
    | some (tail, low, high) => tailStep (leadBits b.toNat tail) 1 tail low high rest

/-- Why bytes are not UTF-8. -/
inductive Fault where
  /-- At byte `index`, `size` bytes that no character starts with. -/
  | invalid (size index : Nat)
  /-- The bytes end inside a character that starts at byte `index`. -/
  | incomplete (index : Nat)
  deriving Repr, DecidableEq

/-- The wording of a fault. -/
def Fault.message : Fault → String
  | .invalid size index =>
    "invalid utf-8 sequence of " ++ toString size ++ " bytes from index " ++ toString index
  | .incomplete index => "incomplete utf-8 byte sequence from index " ++ toString index

/-- The first fault of a byte sequence whose first byte has the given index; `skip` bytes still
    belong to the character read last. -/
def faultFrom (index : Nat) : Nat → List UInt8 → Option Fault
  | _, [] => none
  | skip + 1, _ :: rest => faultFrom (index + 1) skip rest
  | 0, b :: rest =>
    match step b rest with
    | .char _ size => faultFrom (index + 1) (size - 1) rest
    | .invalid size => some (.invalid size index)
    | .cut => some (.incomplete index)

/-- The first fault of a byte sequence, if it is not UTF-8. -/
def fault? (bytes : List UInt8) : Option Fault :=
  faultFrom 0 0 bytes

end IconCompiler.Text.Utf8
