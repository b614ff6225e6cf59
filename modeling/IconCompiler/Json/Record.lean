import IconCompiler.Json.Value

/-!
# Records and lists in JSON

A record is written as an object with its fields in any order, or as a list of its fields in their
order. Unknown keys are passed over, and no field is given twice.

A fault of the record as a whole is found after its closing bracket was looked for.

Readers of texts with any number of elements, keys or values are told how many characters the whole
text has: it holds no more of them than that, so the bound is never met.
-/

namespace IconCompiler.Json

/-- A field of a record that is collected in `ρ`. -/
structure RecordField (ρ : Type) where
  name : String
  /-- Whether the field was read. -/
  isSet : ρ → Bool
  /-- Takes the field's value and adds it to the record. -/
  read : ρ → Reader ρ

/-- How a record of type `α` is read by way of `ρ`. -/
structure RecordFormat (ρ α : Type) where
  /-- How the record is named where another value was found. -/
  expected : String
  /-- The fields in their order. -/
  fields : List (RecordField ρ)
  /-- No field read. -/
  start : ρ
  /-- The record that an object gives. -/
  ofObject : ρ → Except Cause α
  /-- The record that a list gives. -/
  ofList : ρ → Except Cause α

namespace Reader

/-- Whether another element of a list comes; `first` if there was none yet. The comma before it is
    taken. -/
def hasElement (first : Bool) : Reader Bool := do
  match ← peekToken with
  | none => failNext .endOfList
  | some c =>
    if c = ']' then pure false
    else if first then pure true
    else if c = ',' then
      advance
      match ← peekToken with
      | none => failNext .endOfValue
      | some d => if d = ']' then failNext .trailingComma else pure true
    else failNext .expectedListEnd

/-- Takes the end of a list. -/
def endList : Reader Unit := do
  match ← peekToken with
  | none => failNext .endOfList
  | some c =>
    if c = ']' then advance
    else if c = ',' then
      advance
      if (← peekToken) = some ']' then failNext .trailingComma else failNext .trailingCharacters
    else failNext .trailingCharacters

/-- Whether another key of an object comes; `first` if there was none yet. The comma before it is
    taken. -/
def hasKey (first : Bool) : Reader Bool := do
  match ← peekToken with
  | none => failNext .endOfObject
  | some c =>
    if c = '}' then pure false
    else if first then
      if c = '"' then pure true else failNext .keyNotString
    else if c = ',' then
      advance
      match ← peekToken with
      | none => failNext .endOfValue
      | some d =>
        if d = '"' then pure true
        else if d = '}' then failNext .trailingComma
        else failNext .keyNotString
    else failNext .expectedObjectEnd

/-- The fault of a record as a whole. The white space and the closing bracket that come next are
    taken; in a list also a comma and the white space after it. -/
def failRecord {α : Type} (closing : Char) (cause : Cause) : Reader α := do
  match ← peekToken with
  | none => pure ()
  | some c =>
    if c = closing then advance
    else if c = ',' && closing = ']' then
      advance
      let _ ← peekToken
  fail cause

/-- Takes the fields of an object up to its end, in a text of `size` characters; there are at most
    `keys` more. -/
def objectFields {ρ : Type} (size : Nat) (fields : List (RecordField ρ)) (first : Bool) (r : ρ) :
    (keys : Nat) → Reader ρ
  | 0 => pure r
  | keys + 1 => do
    if ← hasKey first then
      advance
      let key ← stringBody
      match fields.find? fun f => f.name = key with
      | none =>
        -- an unknown key: its value has to be JSON, and that is all
        colon
        skipValue size
        objectFields size fields false r keys
      | some f =>
        if f.isSet r then failRecord '}' (.duplicateField key)
        else
          colon
          let r' ← f.read r
          objectFields size fields false r' keys
    else pure r

/-- Takes the fields of a list as far as there are elements. -/
def listFields {ρ : Type} (first : Bool) (r : ρ) : List (RecordField ρ) → Reader ρ
  | [] => pure r
  | f :: fields => do
    if ← hasElement first then
      let r' ← f.read r
      listFields false r' fields
    else pure r

/-- Takes a record in a text of `size` characters. -/
def record {ρ α : Type} (size : Nat) (format : RecordFormat ρ α) : Reader α := do
  let c ← peekValue
  if c = '{' then
    advance
    let r ← objectFields size format.fields true format.start (size + 1)
    match format.ofObject r with
    | .error cause => failRecord '}' cause
    | .ok a =>
      advance
      pure a
  else if c = '[' then
    advance
    let r ← listFields true format.start format.fields
    match format.ofList r with
    | .error cause => failRecord ']' cause
    | .ok a =>
      endList
      pure a
  else wrongType c format.expected

/-- Takes the elements of a list up to its end; there are at most `elements` more. -/
def listElements {α : Type} (element : Reader α) (first : Bool) : (elements : Nat) → Reader (List α)
  | 0 => pure []
  | elements + 1 => do
    if ← hasElement first then
      let a ← element
      let as ← listElements element false elements
      pure (a :: as)
    else pure []

/-- Takes a list in a text of `size` characters. -/
def list {α : Type} (size : Nat) (element : Reader α) : Reader (List α) := do
  let c ← peekValue
  if c = '[' then
    advance
    let as ← listElements element true (size + 1)
    endList
    pure as
  else wrongType c "a sequence"

/-- What a reader, told how many characters a text has, makes of the whole text. -/
def run {α : Type} (r : (size : Nat) → Reader α) (text : String) : Except Fault α :=
  let whole : Reader α := do
    let a ← r text.length
    match ← peekToken with
    | some _ => failNext .trailingCharacters
    | none => pure a
  match whole (.ofText text) with
  | .ok (a, _) => .ok a
  | .error f => .error f

end Reader

end IconCompiler.Json
