import IconCompiler.Markup.Fault
import IconCompiler.Markup.Lexical

/-!
# The attributes of a tag

Attributes are read from the text after a tag's name, one after another, up to the first fault. A
key runs to the next equals sign or space, a value stands between two equal quotes, and the next
attribute may follow without a space.
-/

namespace IconCompiler.Markup

/-- An attribute with its value as it stands in the source. -/
structure Attribute where
  key : String
  value : String
  deriving Repr, DecidableEq

/-- The attributes before the first fault, and that fault. -/
structure AttributeList where
  items : List Attribute
  fault : Option AttributeFault
  deriving Repr, DecidableEq

namespace AttributeList

/-- No attributes and no fault. -/
def nil : AttributeList :=
  ⟨[], none⟩

/-- No attributes, because of a fault. -/
def stop (fault : AttributeFault) : AttributeList :=
  ⟨[], some fault⟩

/-- One more attribute at the front. -/
def cons (a : Attribute) (l : AttributeList) : AttributeList :=
  ⟨a :: l.items, l.fault⟩

end AttributeList

/-- Whether a character can stand in a key behind its first one. -/
def isKeyChar (c : Char) : Bool :=
  c ≠ '=' && !isMarkupSpace c

/-- Reads a key at the front of a text at byte `pos`: the key, the byte after the space that follows
    it, and the text from there on. A key's first character is taken whatever it is. -/
def takeKey (pos : Nat) (c : Char) (cs : List Char) : List Char × Nat × List Char :=
  let key := c :: cs.takeWhile isKeyChar
  let rest := cs.dropWhile isKeyChar
  (key, pos + byteLength key + (rest.takeWhile isMarkupSpace).length,
    rest.dropWhile isMarkupSpace)

private theorem takeKey_length (pos : Nat) (c : Char) (cs : List Char) :
    (takeKey pos c cs).2.2.length ≤ cs.length :=
  Nat.le_trans (dropWhile_length _ _) (dropWhile_length _ _)

/-- Reads a value at the front of a text at byte `pos`, after the equals sign: the value, the byte
    after its closing quote, and the text from there on. -/
def takeValue (pos : Nat) (cs : List Char) :
    Except AttributeFault (List Char × Nat × List Char) :=
  let start := pos + (cs.takeWhile isMarkupSpace).length
  match cs.dropWhile isMarkupSpace with
  | [] => .error (.missingValue start)
  | q :: rest =>
    if q = '"' || q = '\'' then
      match cutAt [q] rest with
      | none => .error (.missingQuote (start + 1 + byteLength rest) q)
      | some (value, rest') => .ok (value, start + 1 + byteLength value + 1, rest')
    else .error (.unquotedValue start)

/-- What follows a value is no longer than the text it was read from. -/
private theorem takeValue_length {pos : Nat} {cs value rest : List Char} {pos' : Nat}
    (h : takeValue pos cs = .ok (value, pos', rest)) : rest.length ≤ cs.length := by
  unfold takeValue at h
  have hd := dropWhile_length isMarkupSpace cs
  dsimp only at h
  split at h
  · cases h
  · rename_i q r hr
    rw [hr] at hd
    split at h
    · split at h
      · cases h
      · rename_i a b hab
        cases h
        exact Nat.le_trans (cutAt_length hab) (Nat.le_trans (Nat.le_succ _) hd)
    · cases h

/-- What stands at the front of the text after a tag's name. -/
inductive AttributeStep where
  /-- Nothing but space. -/
  | done
  /-- A faulty attribute. -/
  | fault (f : AttributeFault)
  /-- An attribute whose key stands at byte `start`, and the text that follows it at byte `pos`. -/
  | item (key : List Char) (start : Nat) (value : List Char) (pos : Nat) (rest : List Char)

/-- Reads one attribute of a text at byte `pos`; `seen` holds the earlier keys and where they
    stand. -/
def nextAttribute (seen : List (List Char × Nat)) (pos : Nat) (cs : List Char) : AttributeStep :=
  let start := pos + (cs.takeWhile isMarkupSpace).length
  match cs.dropWhile isMarkupSpace with
  | [] => .done
  | c :: rest =>
    match takeKey start c rest with
    | (key, p, '=' :: rest') =>
      -- a repeated key is a fault even if its value is faulty too
      match seen.lookup key with
      | some earlier => .fault (.duplicate start earlier)
      | none =>
        match takeValue (p + 1) rest' with
        | .error f => .fault f
        | .ok (value, p', rest'') => .item key start value p' rest''
    | (_, p, _) => .fault (.missingEquals p)

/-- What follows an attribute is shorter than the text it was read from, so reading attributes comes
    to an end. -/
private theorem nextAttribute_length {seen : List (List Char × Nat)} {pos start pos' : Nat}
    {cs key value rest : List Char}
    (h : nextAttribute seen pos cs = .item key start value pos' rest) :
    rest.length < cs.length := by
  unfold nextAttribute at h
  have h₁ := dropWhile_length isMarkupSpace cs
  dsimp only at h
  split at h
  · cases h
  · rename_i c r hr
    rw [hr] at h₁
    have h₂ := takeKey_length (pos + (cs.takeWhile isMarkupSpace).length) c r
    split at h
    · rename_i k p r' hk
      rw [hk] at h₂
      split at h
      · cases h
      · split at h
        · cases h
        · rename_i hv
          have h₃ := takeValue_length hv
          cases h
          simp only [List.length_cons] at h₁ h₂
          omega
    · cases h

/-- Reads the attributes of a text at byte `pos`; `seen` holds the earlier keys and where they
    stand. -/
def readAttributes (seen : List (List Char × Nat)) (pos : Nat) (cs : List Char) : AttributeList :=
  match h : nextAttribute seen pos cs with
  | .done => .nil
  | .fault f => .stop f
  | .item key start value pos' rest =>
    have : rest.length < cs.length := nextAttribute_length h
    .cons ⟨String.ofList key, String.ofList value⟩ (readAttributes ((key, start) :: seen) pos' rest)
termination_by cs.length

end IconCompiler.Markup
