import IconCompiler.Json.Text
import Mathlib.Tactic.SplitIfs

/-!
# Strings that are written and read

A text that is written between quotes is read back character by character: each one is written as a
short escape, as a numeric escape or as itself, and each of these is read as the character, whatever
follows.

## Key results

- `escapeChar_cases`: how a character is written
- `takeString_escapeChar`: what is written of a character is read as that character
- `takeString_flatMap_escapeChar`: a text between quotes is read back
-/

namespace IconCompiler.Json

theorem Position.afterAll_append (p : Position) (a b : List Char) :
    p.afterAll (a ++ b) = (p.afterAll a).afterAll b :=
  List.foldl_append

/-! ## Reading one character -/

/-- A quote ends a string. -/
private theorem takeString_quote (skimmed : Bool) (rest : List Char) (pos : Position) :
    takeString skimmed ⟨'"' :: rest, pos⟩ = .ok ([], ⟨rest, pos.after '"'⟩) := by
  rw [takeString]
  simp

/-- An escape in a string is read as the character that it stands for. -/
private theorem takeString_escape {skimmed : Bool} {c : Char} {cs rest : List Char}
    {pos pos' : Position} (h : takeEscape skimmed ⟨cs, pos.after '\\'⟩ = .ok (c, ⟨rest, pos'⟩)) :
    takeString skimmed ⟨'\\' :: cs, pos⟩ =
      (takeString skimmed ⟨rest, pos'⟩).map fun p => (c :: p.1, p.2) := by
  rw [takeString]
  split
  · rename_i hnil
    cases hnil
  · rename_i hcons
    cases hcons
    rw [if_neg (by decide), if_pos rfl]
    -- the reader takes the escape again, and it can only take what the hypothesis says
    split
    · rename_i hfault
      rw [h] at hfault
      cases hfault
    · rename_i htake
      rw [h] at htake
      cases htake
      rfl

/-- A character that is no quote, no backslash and no control character stands for itself. -/
private theorem takeString_plain {skimmed : Bool} {c : Char} (hquote : c ≠ '"') (hslash : c ≠ '\\')
    (hcontrol : ¬c.toNat < 0x20) (rest : List Char) (pos : Position) :
    takeString skimmed ⟨c :: rest, pos⟩ =
      (takeString skimmed ⟨rest, pos.after c⟩).map fun p => (c :: p.1, p.2) := by
  rw [takeString]
  split
  · rename_i hnil
    cases hnil
  · rename_i hcons
    cases hcons
    rw [if_neg hquote, if_neg hslash, if_neg hcontrol]

/-- A short escape is one character behind the backslash. -/
private theorem takeEscape_short {c d : Char} (h : shortEscape? d = some c) (rest : List Char)
    (pos : Position) : takeEscape false ⟨d :: rest, pos⟩ = .ok (c, ⟨rest, pos.after d⟩) := by
  simp only [takeEscape, h]

/-- A digit to the base 16 has the value that it is written for. -/
private theorem hexValue?_hexDigit {n : Nat} (h : n < 16) : hexValue? (hexDigit n) = some n := by
  revert n
  decide

/-- The numeric escape of a control character, behind its backslash. -/
def controlEscape (c : Char) : List Char :=
  ['u', '0', '0', hexDigit (c.toNat / 16), hexDigit (c.toNat % 16)]

/-- A numeric escape is read as the control character that it is written for. -/
private theorem takeEscape_controlEscape {c : Char} (h : c.toNat < 0x20) (rest : List Char)
    (pos : Position) : takeEscape false ⟨controlEscape c ++ rest, pos⟩ =
      .ok (c, ⟨rest, pos.afterAll (controlEscape c)⟩) := by
  -- the code point is below 32, so its first two digits are zero
  have hzero : hexValue? '0' = some 0 := by decide
  have hhigh := hexValue?_hexDigit (n := c.toNat / 16) (by omega)
  have hlow := hexValue?_hexDigit (n := c.toNat % 16) (by omega)
  -- the last two digits give it back
  have hsum : c.toNat / 16 * 16 + c.toNat % 16 = c.toNat := by omega
  have hhex : takeHex ⟨(controlEscape c).tail ++ rest, pos.after 'u'⟩ =
      .ok (c.toNat, ⟨rest, pos.afterAll (controlEscape c)⟩) := by
    simp only [takeHex, controlEscape, List.tail_cons, List.cons_append, List.nil_append, hzero,
      hhigh, hlow, Nat.zero_mul, Nat.zero_add, hsum]
    rfl
  have hunicode : takeUnicode false ⟨(controlEscape c).tail ++ rest, pos.after 'u'⟩ =
      .ok (c, ⟨rest, pos.afterAll (controlEscape c)⟩) := by
    -- a control character is no half of a surrogate pair
    have hfirst : ¬0xD800 ≤ c.toNat := by omega
    have hsecond : ¬0xDC00 ≤ c.toNat := by omega
    simp [takeUnicode, hhex, hfirst, hsecond]
  exact hunicode

/-! ## Reading what is written -/

/-- How a character is written: by a short escape, by a numeric one, or as itself. -/
theorem escapeChar_cases (c : Char) :
    (∃ d, shortEscape? d = some c ∧ escapeChar c = ['\\', d]) ∨
      (c.toNat < 0x20 ∧ escapeChar c = '\\' :: controlEscape c) ∨
      (c ≠ '"' ∧ c ≠ '\\' ∧ ¬c.toNat < 0x20 ∧ escapeChar c = [c]) := by
  unfold escapeChar
  split
  · -- a quote and a backslash are written as themselves behind a backslash
    rename_i hmark
    simp only [Bool.or_eq_true, decide_eq_true_eq] at hmark
    refine .inl ⟨c, ?_, rfl⟩
    rcases hmark with rfl | rfl <;> rfl
  · rename_i hmark
    simp only [Bool.or_eq_true, decide_eq_true_eq, not_or] at hmark
    split_ifs with hb ht hn hf hr hcontrol
    · exact .inl ⟨'b', by rw [hb]; rfl, rfl⟩
    · exact .inl ⟨'t', by rw [ht]; rfl, rfl⟩
    · exact .inl ⟨'n', by rw [hn]; rfl, rfl⟩
    · exact .inl ⟨'f', by rw [hf]; rfl, rfl⟩
    · exact .inl ⟨'r', by rw [hr]; rfl, rfl⟩
    · exact .inr (.inl ⟨hcontrol, rfl⟩)
    · exact .inr (.inr ⟨hmark.1, hmark.2, hcontrol, rfl⟩)

/-- What is written of a character is read as that character. -/
theorem takeString_escapeChar (c : Char) (rest : List Char) (pos : Position) :
    takeString false ⟨escapeChar c ++ rest, pos⟩ =
      (takeString false ⟨rest, pos.afterAll (escapeChar c)⟩).map fun p => (c :: p.1, p.2) := by
  rcases escapeChar_cases c with
    ⟨d, hd, htext⟩ | ⟨hcontrol, htext⟩ | ⟨hquote, hslash, hplain, htext⟩
  · rw [htext]
    exact takeString_escape (takeEscape_short hd rest _)
  · rw [htext]
    exact takeString_escape (takeEscape_controlEscape hcontrol rest _)
  · rw [htext]
    exact takeString_plain hquote hslash hplain rest pos

/-- A text between quotes is read back, whatever follows. -/
theorem takeString_flatMap_escapeChar (cs rest : List Char) (pos : Position) :
    takeString false ⟨cs.flatMap escapeChar ++ '"' :: rest, pos⟩ =
      .ok (cs, ⟨rest, pos.afterAll (cs.flatMap escapeChar ++ ['"'])⟩) := by
  -- character by character, from wherever the reader stands
  induction cs generalizing pos with
  | nil => exact takeString_quote false rest pos
  | cons c cs ih =>
    rw [List.flatMap_cons, List.append_assoc, takeString_escapeChar, ih, List.append_assoc,
      Position.afterAll_append pos]
    rfl

end IconCompiler.Json
