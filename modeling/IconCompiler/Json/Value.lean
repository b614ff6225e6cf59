import IconCompiler.Json.Number
import IconCompiler.Json.Text

/-!
# Values in JSON

Readers for the values that a record holds, and one that passes over a value of any kind. A value of
the wrong kind is named in the fault: a scalar is read for that, a list or object is not entered.
-/

namespace IconCompiler.Json

namespace Reader

/-- The first character of a value. -/
def peekValue : Reader Char := do
  match ← peekToken with
  | some c => pure c
  | none => failNext .endOfValue

/-- The fault of a value of the wrong kind, which starts with `c`. -/
def wrongType {α : Type} (c : Char) (expected : String) : Reader α := do
  let found ←
    if c = 'n' then do advance; word ['u', 'l', 'l']; pure Found.null
    else if c = 't' then do advance; word ['r', 'u', 'e']; pure (Found.boolean true)
    else if c = 'f' then do advance; word ['a', 'l', 's', 'e']; pure (Found.boolean false)
    else if c = '-' || c.isDigit then do pure (← number).found
    else if c = '"' then do advance; pure (Found.string (← stringBody))
    -- a list or an object is named by its bracket, without a look inside
    else if c = '[' then pure Found.sequence
    else if c = '{' then pure Found.map
    else failNext .expectedValue
  fail (.invalidType found expected)

/-- Takes a string. -/
def string (expected : String) : Reader String := do
  let c ← peekValue
  if c = '"' then
    advance
    stringBody
  else wrongType c expected

/-- Takes `true` or `false`. -/
def boolean : Reader Bool := do
  let c ← peekValue
  if c = 't' then do
    advance
    word ['r', 'u', 'e']
    pure true
  else if c = 'f' then do
    advance
    word ['a', 'l', 's', 'e']
    pure false
  else wrongType c "a boolean"

/-- Takes a whole number that is not negative. -/
def count : Reader Nat := do
  let c ← peekValue
  if c = '-' || c.isDigit then
    match ← number with
    | .natural n => pure n
    | .negative n => fail (.invalidValue (.negative n) "usize")
    | n => fail (.invalidType n.found "usize")
  else wrongType c "usize"

/-- Takes `null`, or a whole number that is not negative. -/
def optionalCount : Reader (Option Nat) := do
  if (← peekToken) = some 'n' then
    advance
    word ['u', 'l', 'l']
    pure none
  else some <$> count

/-! ## Passing over a value -/

/-- A list or object whose end was not reached. -/
inductive Frame where
  | list
  | object
  deriving Repr, DecidableEq

/-- The character that ends a frame. -/
def Frame.closing : Frame → Char
  | .list => ']'
  | .object => '}'

/-- The fault of a text that ends inside a frame. -/
def Frame.endCause : Frame → Cause
  | .list => .endOfList
  | .object => .endOfObject

/-- The fault of a character that neither goes on with a frame nor ends it. -/
def Frame.nextCause : Frame → Cause
  | .list => .expectedListEnd
  | .object => .expectedObjectEnd

/-- Passes over a value that is no list or object, or into the list or object that it starts. -/
def skipFront : Reader (Option Frame) := do
  let c ← peekValue
  if c = 'n' then do advance; word ['u', 'l', 'l']; pure none
  else if c = 't' then do advance; word ['r', 'u', 'e']; pure none
  else if c = 'f' then do advance; word ['a', 'l', 's', 'e']; pure none
  else if c = '-' || c.isDigit then do skipNumber; pure none
  else if c = '"' then do advance; skipString; pure none
  else if c = '[' then do advance; pure (some .list)
  else if c = '{' then do advance; pure (some .object)
  else failNext .expectedValue

/-- Takes a colon. -/
def colon : Reader Unit := do
  match ← peekToken with
  | some c => if c = ':' then advance else failNext .expectedColon
  | none => failNext .endOfObject

/-- Passes over a key and its colon, if the frame is an object. -/
def skipKey : Frame → Reader Unit
  | .list => pure ()
  | .object => do
    match ← peekToken with
    | some c =>
      if c = '"' then
        advance
        skipString
      else failNext .keyNotString
    | none => failNext .endOfObject
    colon

/-- Passes over the ends of frames. After a value (`comma`) a comma may come, or else the innermost
    frame has to end; at the front of a frame neither is needed. What is given back are the frames
    in which another value comes. -/
def skipEnds (comma : Bool) : List Frame → Reader (List Frame)
  | [] => pure []
  | frame :: outer => do
    match ← peekToken with
    | none => failNext frame.endCause
    | some c =>
      if c = ',' && comma then
        advance
        pure (frame :: outer)
      else if c = frame.closing then
        advance
        skipEnds true outer
      else if comma then failNext frame.nextCause
      else pure (frame :: outer)

/-- Passes over a value inside the given frames and over all that ends them; there are at most
    `values` more values. -/
def skipIn (frames : List Frame) : (values : Nat) → Reader Unit
  | 0 => pure ()
  | values + 1 => do
    let open? ← skipFront
    match ← skipEnds open?.isNone (open?.toList ++ frames) with
    | [] => pure ()
    | frame :: outer => do
      skipKey frame
      skipIn (frame :: outer) values

/-- Passes over a value of any kind in a text of `size` characters, each of which starts one value
    at most. -/
def skipValue (size : Nat) : Reader Unit :=
  skipIn [] (size + 1)

end Reader

end IconCompiler.Json
