import IconCompiler.Json.Cursor

/-!
# Strings in JSON

How a text is written between double quotes, and how what was written is read.
-/

namespace IconCompiler.Json

/-! ## Writing -/

/-- The hexadecimal digit of a number below sixteen. -/
def hexDigit (n : Nat) : Char :=
  Nat.digitChar n

/-- A character as it is written between quotes. Quotes, backslashes and control characters are
    escaped, everything else stands for itself. -/
def escapeChar (c : Char) : List Char :=
  if c = '"' || c = '\\' then ['\\', c]
  else if c = '\x08' then ['\\', 'b']
  else if c = '\t' then ['\\', 't']
  else if c = '\n' then ['\\', 'n']
  else if c = '\x0c' then ['\\', 'f']
  else if c = '\r' then ['\\', 'r']
  else if c.toNat < 0x20 then
    ['\\', 'u', '0', '0', hexDigit (c.toNat / 16), hexDigit (c.toNat % 16)]
  else [c]

/-- A text as it is written, with its quotes. -/
def quote (s : String) : List Char :=
  '"' :: s.toList.flatMap escapeChar ++ ['"']

/-! ## Reading -/

/-- The value of a hexadecimal digit. -/
def hexValue? (c : Char) : Option Nat :=
  if '0' ≤ c && c ≤ '9' then some (c.toNat - '0'.toNat)
  else if 'a' ≤ c && c ≤ 'f' then some (c.toNat - 'a'.toNat + 10)
  else if 'A' ≤ c && c ≤ 'F' then some (c.toNat - 'A'.toNat + 10)
  else none

/-- How many bytes a text takes. -/
def byteCount (cs : List Char) : Nat :=
  cs.foldr (fun c n => c.utf8Size + n) 0

/-- The position after some bytes of a text; the last character may be cut. -/
def Position.afterBytes (p : Position) : Nat → List Char → Position
  | _, [] => p
  | n, c :: cs =>
    if c.utf8Size ≤ n then Position.afterBytes (p.after c) (n - c.utf8Size) cs
    else ⟨p.line, p.column + n⟩

/-- The fault of a numeric escape that has no four hexadecimal digits at the cursor. -/
def hexFault (cur : Cursor) : Fault :=
  if byteCount cur.rest < 4 then ⟨.endOfString, cur.position.afterAll cur.rest⟩
  else ⟨.invalidEscape, cur.position.afterBytes 4 cur.rest⟩

/-- The number that four hexadecimal digits at the cursor spell, and the cursor behind them. -/
def takeHex (cur : Cursor) : Except Fault (Nat × Cursor) :=
  match cur.rest with
  | a :: b :: c :: d :: cs =>
    match hexValue? a, hexValue? b, hexValue? c, hexValue? d with
    | some a', some b', some c', some d' =>
      .ok (((a' * 16 + b') * 16 + c') * 16 + d', ⟨cs, cur.position.afterAll [a, b, c, d]⟩)
    | _, _, _, _ => .error (hexFault cur)
  | _ => .error (hexFault cur)

/-- Takes the characters `\u` and four hexadecimal digits, which have to follow the first half of a
    surrogate pair. -/
def takeSecondHex (cur : Cursor) : Except Fault (Nat × Cursor) :=
  match cur.rest with
  | [] => .error ⟨.endOfString, cur.position⟩
  | c :: cs =>
    if c = '\\' then
      match cs with
      | [] => .error ⟨.endOfString, cur.position.after c⟩
      | d :: cs' =>
        if d = 'u' then takeHex ⟨cs', (cur.position.after c).after d⟩
        else .error ⟨.unfinishedPair, (cur.position.after c).afterByte cs⟩
    else .error ⟨.unfinishedPair, cur.position.afterByte cur.rest⟩

/-- Takes a numeric escape after its `u`. Where the text is `skimmed`, its value does not matter and
    surrogates need no partner. -/
def takeUnicode (skimmed : Bool) (cur : Cursor) : Except Fault (Char × Cursor) :=
  match takeHex cur with
  | .error f => .error f
  | .ok (n, cur') =>
    -- a skimmed text is thrown away, so any character will do
    if skimmed then .ok (Char.ofNat n, cur')
    else if 0xDC00 ≤ n && n ≤ 0xDFFF then .error ⟨.loneSurrogate, cur'.position⟩
    else if 0xD800 ≤ n && n ≤ 0xDBFF then
      match takeSecondHex cur' with
      | .error f => .error f
      | .ok (m, cur'') =>
        if 0xDC00 ≤ m && m ≤ 0xDFFF then
          .ok (Char.ofNat ((n - 0xD800) * 0x400 + (m - 0xDC00) + 0x10000), cur'')
        else .error ⟨.loneSurrogate, cur''.position⟩
    else .ok (Char.ofNat n, cur')

/-- The character of a short escape. -/
def shortEscape? (c : Char) : Option Char :=
  if c = '"' || c = '\\' || c = '/' then some c
  else if c = 'b' then some '\x08'
  else if c = 'f' then some '\x0c'
  else if c = 'n' then some '\n'
  else if c = 'r' then some '\r'
  else if c = 't' then some '\t'
  else none

/-- Takes an escape after its backslash. -/
def takeEscape (skimmed : Bool) (cur : Cursor) : Except Fault (Char × Cursor) :=
  match cur.rest with
  | [] => .error ⟨.endOfString, cur.position⟩
  | c :: cs =>
    match shortEscape? c with
    | some d => .ok (d, ⟨cs, cur.position.after c⟩)
    | none =>
      if c = 'u' then takeUnicode skimmed ⟨cs, cur.position.after c⟩
      else .error ⟨.invalidEscape, cur.position.afterByte cur.rest⟩

/-- Reading a hexadecimal number leaves no more text than there was. -/
private theorem takeHex_length {cur cur' : Cursor} {n : Nat} (h : takeHex cur = .ok (n, cur')) :
    cur'.rest.length ≤ cur.rest.length := by
  unfold takeHex at h
  split at h
  · rename_i hr
    split at h
    · cases h
      rw [hr]
      simp only [List.length_cons]
      omega
    · cases h
  · cases h

/-- Reading the second half of a surrogate pair leaves no more text than there was. -/
private theorem takeSecondHex_length {cur cur' : Cursor} {n : Nat}
    (h : takeSecondHex cur = .ok (n, cur')) : cur'.rest.length ≤ cur.rest.length := by
  unfold takeSecondHex at h
  split at h
  · cases h
  · rename_i hr
    split at h
    · split at h
      · cases h
      · split at h
        · have := takeHex_length h
          rw [hr]
          simp only [List.length_cons] at this ⊢
          omega
        · cases h
    · cases h

/-- Reading a character given by its number leaves no more text than there was. -/
private theorem takeUnicode_length {skimmed : Bool} {cur cur' : Cursor} {c : Char}
    (h : takeUnicode skimmed cur = .ok (c, cur')) : cur'.rest.length ≤ cur.rest.length := by
  unfold takeUnicode at h
  split at h
  · cases h
  · rename_i hx
    have h₁ := takeHex_length hx
    split at h
    · simp only [Except.ok.injEq, Prod.mk.injEq] at h
      obtain ⟨_, rfl⟩ := h
      exact h₁
    · split at h
      · cases h
      · split at h
        · split at h
          · cases h
          · rename_i hy
            have h₂ := takeSecondHex_length hy
            split at h
            · simp only [Except.ok.injEq, Prod.mk.injEq] at h
              obtain ⟨_, rfl⟩ := h
              exact Nat.le_trans h₂ h₁
            · cases h
        · simp only [Except.ok.injEq, Prod.mk.injEq] at h
          obtain ⟨_, rfl⟩ := h
          exact h₁

/-- Reading an escape leaves no more text than there was, so reading a string comes to an end. -/
private theorem takeEscape_length {skimmed : Bool} {cur cur' : Cursor} {c : Char}
    (h : takeEscape skimmed cur = .ok (c, cur')) : cur'.rest.length ≤ cur.rest.length := by
  unfold takeEscape at h
  split at h
  · cases h
  · rename_i hr
    rw [hr]
    split at h
    · cases h
      simp
    · split at h
      · have := takeUnicode_length h
        simp only [List.length_cons] at this ⊢
        omega
      · cases h

/-- Takes the rest of a string whose opening quote was taken, with the closing quote. A control
    character that stands for itself is a fault; where the text is `skimmed`, it is not counted. -/
def takeString (skimmed : Bool) (cur : Cursor) : Except Fault (List Char × Cursor) :=
  match hr : cur.rest with
  | [] => .error ⟨.endOfString, cur.position⟩
  | c :: cs =>
    if c = '"' then .ok ([], ⟨cs, cur.position.after c⟩)
    else if c = '\\' then
      match he : takeEscape skimmed ⟨cs, cur.position.after c⟩ with
      | .error f => .error f
      | .ok (d, cur') =>
        have : cur'.rest.length < cur.rest.length := by
          have := takeEscape_length he
          rw [hr]
          exact Nat.lt_succ_of_le this
        (takeString skimmed cur').map fun p => (d :: p.1, p.2)
    else if c.toNat < 0x20 then
      .error ⟨.controlCharacter, if skimmed then cur.position else cur.position.after c⟩
    else
      have : cs.length < cur.rest.length := by rw [hr]; exact Nat.lt_succ_self _
      (takeString skimmed ⟨cs, cur.position.after c⟩).map fun p => (c :: p.1, p.2)
termination_by cur.rest.length

namespace Reader

/-- Takes the rest of a string whose opening quote was taken. -/
def stringBody : Reader String :=
  fun cur => (takeString false cur).map fun p => (String.ofList p.1, p.2)

/-- Passes over the rest of a string whose opening quote was taken. -/
def skipString : Reader Unit :=
  fun cur => (takeString true cur).map fun p => ((), p.2)

end Reader

end IconCompiler.Json
