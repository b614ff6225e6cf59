import IconCompiler.Markup.Fault
import IconCompiler.Markup.Lexical

/-!
# Entities in attribute values

An ampersand starts an entity, which ends at the next semicolon. Five names and the numeric
references are known.
-/

namespace IconCompiler.Markup

/-- Whether a character is neither an ampersand nor a semicolon. -/
def isEntityChar (c : Char) : Bool :=
  c ≠ '&' && c ≠ ';'

/-- The value of a digit in a base up to sixteen. -/
def digitValue? (base : Nat) (c : Char) : Option Nat :=
  let value? :=
    if '0' ≤ c && c ≤ '9' then some (c.toNat - '0'.toNat)
    else if 'a' ≤ c && c ≤ 'f' then some (c.toNat - 'a'.toNat + 10)
    else if 'A' ≤ c && c ≤ 'F' then some (c.toNat - 'A'.toNat + 10)
    else none
  value?.filter (· < base)

/-- Reads digits from the left to a number of 32 bits; of a bad digit and a number too large, the
    one met first is the fault. -/
def readDigits (base : Nat) (n : Nat) : List Char → Except ReferenceFault Nat
  | [] => .ok n
  | c :: cs =>
    match digitValue? base c with
    | none => .error .badDigit
    | some d =>
      if n * base + d < Nat.pow 2 32 then readDigits base (n * base + d) cs else .error .tooLarge

/-- The character of a numeric reference whose digits are given. -/
def readReference (base : Nat) (digits : List Char) : Except ReferenceFault Char :=
  match digits with
  | [] => .error .noDigits
  | c :: _ =>
    if c = '+' || c = '-' then .error .signed
    else
      match readDigits base 0 digits with
      | .error fault => .error fault
      | .ok n =>
        if n = 0 then .error .zero
        -- surrogates are no characters
        else if n < 0xD800 || (0xE000 ≤ n && n ≤ 0x10FFFF) then .ok (Char.ofNat n)
        else .error (.notACharacter n)

/-- The character of a named entity. -/
def namedEntity? (name : List Char) : Option Char :=
  [("lt", '<'), ("gt", '>'), ("amp", '&'), ("apos", '\''), ("quot", '"')].lookup
    (String.ofList name)

/-- The character of an entity whose name stands at the given bytes. -/
def readEntity (start stop : Nat) (name : List Char) : Except EntityFault Char :=
  match name with
  | '#' :: 'x' :: digits => (readReference 16 digits).mapError .reference
  | '#' :: digits => (readReference 10 digits).mapError .reference
  | _ =>
    match namedEntity? name with
    | some c => .ok c
    | none => .error (.unrecognized start stop (String.ofList name))

/-- Decodes the entities of a text at byte `pos` of a value of `size` bytes. -/
def decodeFrom (size pos : Nat) (cs : List Char) : Except EntityFault (List Char) :=
  match cs with
  | [] => .ok []
  | c :: rest =>
    if c = '&' then
      -- the name goes up to a semicolon; another ampersand before that leaves it without an end
      let name := rest.takeWhile isEntityChar
      let stop := pos + 1 + byteLength name
      match h : rest.dropWhile isEntityChar with
      | ';' :: rest' =>
        have : rest'.length < rest.length := length_of_dropWhile_eq_cons h
        match readEntity (pos + 1) stop name with
        | .error fault => .error fault
        | .ok d => (decodeFrom size (stop + 1) rest').map (d :: ·)
      | _ => .error (.unterminated pos size)
    else (decodeFrom size (pos + c.utf8Size) rest).map (c :: ·)
termination_by cs.length

/-- A value with its entities decoded. -/
def decodeEntities (value : String) : Except EntityFault String :=
  (decodeFrom (byteLength value.toList) 0 value.toList).map String.ofList

end IconCompiler.Markup
