import IconCompiler.Proofs.Jsx.Styles

/-!
# The grammar of numbers

A style value is written bare if module code takes it for a number. The grammar of such numbers is
stated here by its rules: an optional sign, a decimal integer without a superfluous zero or a point
with digits, and an optional exponent. Dropping the sign and taking digits off the front decides it,
and so do three tests that each cover a part of it: no zero stands in front of another digit, no
character is foreign to numbers, and the text reads as a floating-point number.

## Key results

- `isUnsignedDecimal_iff`: decimal numbers without a sign, by their grammar
- `isDecimal_isInteger_iff`: what the test for leading zeros leaves of them
- `isNumberLiteral_exact`: number literals are the decimal literals behind an optional sign
-/

namespace IconCompiler.Style

open Jsx

/-! ## The grammar -/

/-- An optional sign. -/
inductive IsSign : List Char → Prop where
  | none : IsSign []
  | plus : IsSign ['+']
  | minus : IsSign ['-']

/-- One digit or more. -/
structure IsDigits (cs : List Char) : Prop where
  ne_nil : cs ≠ []
  all : cs.all Char.isDigit = true

/-- A decimal integer without a superfluous zero in front. -/
inductive IsInteger : List Char → Prop where
  | zero : IsInteger ['0']
  | digits {d : Char} {ds : List Char} (hd : d.isDigit = true) (hne : d ≠ '0')
    (hds : ds.all Char.isDigit = true) : IsInteger (d :: ds)

/-- An optional exponent. -/
inductive IsExponent : List Char → Prop where
  | none : IsExponent []
  | some {mark : Char} {sign digits : List Char} (hmark : mark = 'e' ∨ mark = 'E')
    (hsign : IsSign sign) (hdigits : IsDigits digits) : IsExponent (mark :: (sign ++ digits))

/-- A decimal number without a sign, for a given form of what stands in front of the point. -/
inductive IsDecimal (Whole : List Char → Prop) : List Char → Prop where
  | whole {w e : List Char} (hw : Whole w) (he : IsExponent e) : IsDecimal Whole (w ++ e)
  | point {w f e : List Char} (hw : Whole w) (hf : f.all Char.isDigit = true)
    (he : IsExponent e) : IsDecimal Whole (w ++ '.' :: (f ++ e))
  | fraction {f e : List Char} (hf : IsDigits f) (he : IsExponent e) :
    IsDecimal Whole ('.' :: (f ++ e))

/-- A text of some form behind an optional sign. -/
def Signed (Body : List Char → Prop) (cs : List Char) : Prop :=
  ∃ sign body, cs = sign ++ body ∧ IsSign sign ∧ Body body

/-- A number in module code: a decimal literal behind an optional sign. -/
def IsModuleNumber : List Char → Prop :=
  Signed (IsDecimal IsInteger)

/-- The floating-point numbers that are written as words. -/
def floatWords : List (List Char) :=
  ["inf".toList, "infinity".toList, "nan".toList]

/-- Whether a text is one of the words for floating-point numbers, in capital or small letters. -/
def IsFloatWord (cs : List Char) : Prop :=
  cs.map Char.toLower ∈ floatWords

/-- A text that reads as a floating-point number: a decimal number, in which zeros may stand in
    front, or a word, behind an optional sign. -/
def IsFloat : List Char → Prop :=
  Signed fun body => IsDecimal IsDigits body ∨ IsFloatWord body

/-! ## Signs -/

/-- Whether a text starts with no sign. -/
def Unsigned (cs : List Char) : Prop :=
  ∀ c ∈ cs.head?, c ≠ '+' ∧ c ≠ '-'

/-- What is dropped from the front of a text is a sign. -/
private theorem exists_sign (cs : List Char) : ∃ sign, IsSign sign ∧ cs = sign ++ dropSign cs := by
  unfold dropSign
  split
  · exact ⟨_, .plus, rfl⟩
  · exact ⟨_, .minus, rfl⟩
  · exact ⟨_, .none, rfl⟩

/-- A sign is dropped as a whole. -/
private theorem dropSign_append {sign body : List Char} (hsign : IsSign sign)
    (hbody : Unsigned body) :
    dropSign (sign ++ body) = body := by
  cases hsign with
  | none =>
    rw [List.nil_append]
    -- without a sign in front of it, the body loses nothing
    unfold dropSign
    split
    · exact absurd rfl (hbody '+' rfl).1
    · exact absurd rfl (hbody '-' rfl).2
    · rfl
  | plus => rfl
  | minus => rfl

/-- If no text of a form starts with a sign, the sign of a text is the one that is dropped. -/
private theorem signed_iff {Body : List Char → Prop} (h : ∀ body, Body body → Unsigned body)
    {cs : List Char} : Signed Body cs ↔ Body (dropSign cs) := by
  constructor
  · rintro ⟨sign, body, rfl, hsign, hbody⟩
    rwa [dropSign_append hsign (h body hbody)]
  · intro hbody
    obtain ⟨sign, hsign, hcs⟩ := exists_sign cs
    exact ⟨sign, dropSign cs, hcs, hsign, hbody⟩

/-- A text without a sign in front of it stays. -/
private theorem dropWhile_sign {cs : List Char} (h : Unsigned cs) :
    (cs.dropWhile fun c => c = '-' || c = '+') = cs := by
  cases cs with
  | nil => rfl
  | cons c cs =>
    have hc := h c rfl
    simp [hc]

/-! ## Digits -/

/-- A text that does not go on with a digit. -/
def EndsDigits (cs : List Char) : Prop :=
  ∀ c ∈ cs.head?, c.isDigit = false

/-- A point ends digits. -/
private theorem endsDigits_point (cs : List Char) : EndsDigits ('.' :: cs) := by
  intro c hc
  cases hc
  rfl

/-- An exponent ends the digits in front of it. -/
private theorem IsExponent.endsDigits {e : List Char} (h : IsExponent e) : EndsDigits e := by
  intro c hc
  cases h with
  | none => cases hc
  | some hmark _ _ =>
    cases hc
    rcases hmark with rfl | rfl <;> rfl

/-- Digits are taken up to the first character that is none. -/
private theorem takeWhile_digits_append {digits rest : List Char}
    (h : digits.all Char.isDigit = true) (hrest : EndsDigits rest) :
    (digits ++ rest).takeWhile Char.isDigit = digits ∧
      (digits ++ rest).dropWhile Char.isDigit = rest := by
  rw [List.all_eq_true] at h
  rw [List.takeWhile_append_of_pos h, List.dropWhile_append_of_pos h]
  cases rest with
  | nil => simp
  | cons c rest =>
    have hc := hrest c rfl
    simp [hc]

/-- A digit is no sign. -/
private theorem unsigned_of_isDigit {c : Char} (hc : c.isDigit = true) (cs : List Char) :
    Unsigned (c :: cs) := by
  intro d hd
  cases hd
  constructor <;> rintro rfl <;> cases hc

private theorem IsDigits.exists_cons {cs : List Char} (h : IsDigits cs) :
    ∃ d ds, cs = d :: ds ∧ d.isDigit = true ∧ ds.all Char.isDigit = true := by
  obtain ⟨hne, hall⟩ := h
  obtain ⟨d, ds, rfl⟩ := List.exists_cons_of_ne_nil hne
  rw [List.all_cons, Bool.and_eq_true] at hall
  exact ⟨d, ds, rfl, hall⟩

/-- Digits in front of a text leave no place for a sign. -/
private theorem IsDigits.unsigned_append {cs : List Char} (h : IsDigits cs) (rest : List Char) :
    Unsigned (cs ++ rest) := by
  obtain ⟨d, ds, rfl, hd, -⟩ := h.exists_cons
  exact unsigned_of_isDigit hd _

/-- Digits start with no sign. -/
theorem IsDigits.unsigned {cs : List Char} (h : IsDigits cs) : Unsigned cs := by
  have happend := h.unsigned_append []
  rwa [List.append_nil] at happend

/-- A decimal number starts with a digit or a point, and so with no sign. -/
theorem IsDecimal.unsigned {cs : List Char} (h : IsDecimal IsDigits cs) : Unsigned cs := by
  cases h with
  | whole hw _ => exact hw.unsigned_append _
  | point hw _ _ => exact hw.unsigned_append _
  | fraction _ _ =>
    intro c hc
    cases hc
    decide

/-! ## Decimal numbers -/

/-- The test for an exponent decides its grammar. -/
private theorem isExponentPart_iff {cs : List Char} : isExponentPart cs = true ↔ IsExponent cs := by
  constructor
  · intro h
    cases cs with
    | nil => exact .none
    | cons c cs =>
      simp only [isExponentPart, Bool.and_eq_true, Bool.or_eq_true, decide_eq_true_eq,
        Bool.not_eq_true', List.isEmpty_eq_false_iff] at h
      obtain ⟨⟨hmark, hne⟩, hall⟩ := h
      -- the test drops a sign, and the grammar names it
      obtain ⟨sign, hsign, hcs⟩ := exists_sign cs
      rw [hcs]
      exact .some hmark hsign ⟨hne, hall⟩
  · intro h
    cases h with
    | none => rfl
    | some hmark hsign hdigits =>
      rw [isExponentPart, dropSign_append hsign hdigits.unsigned]
      simp [hmark, hdigits.ne_nil, hdigits.all]

/-- Without a point there has to be a digit in front of the exponent. -/
private theorem isUnsignedDecimal_whole {w e : List Char} (hw : w.all Char.isDigit = true)
    (he : IsExponent e) : isUnsignedDecimal (w ++ e) = !w.isEmpty := by
  obtain ⟨htake, hdrop⟩ := takeWhile_digits_append hw he.endsDigits
  simp only [isUnsignedDecimal, htake, hdrop]
  split
  · -- an exponent does not start with a point
    cases he with
    | some hmark _ _ => rcases hmark with h | h <;> cases h
  · rw [isExponentPart_iff.2 he, Bool.and_true]

/-- With a point there has to be a digit on one side of it. -/
private theorem isUnsignedDecimal_point {w f e : List Char} (hw : w.all Char.isDigit = true)
    (hf : f.all Char.isDigit = true) (he : IsExponent e) :
    isUnsignedDecimal (w ++ '.' :: (f ++ e)) = !(w.isEmpty && f.isEmpty) := by
  obtain ⟨htake, hdrop⟩ := takeWhile_digits_append hw (endsDigits_point (f ++ e))
  obtain ⟨htake', hdrop'⟩ := takeWhile_digits_append hf he.endsDigits
  simp only [isUnsignedDecimal, htake, hdrop, htake', hdrop', isExponentPart_iff.2 he,
    Bool.and_true]

/-- The decimal numbers without a sign, in which zeros may stand in front. -/
theorem isUnsignedDecimal_iff {cs : List Char} :
    isUnsignedDecimal cs = true ↔ IsDecimal IsDigits cs := by
  constructor
  · intro h
    have hw : (cs.takeWhile Char.isDigit).all Char.isDigit = true := List.all_takeWhile
    have hcs : cs.takeWhile Char.isDigit ++ cs.dropWhile Char.isDigit = cs :=
      List.takeWhile_append_dropWhile
    rw [← hcs]
    simp only [isUnsignedDecimal] at h
    -- only that it is made of digits matters of what was taken
    generalize cs.takeWhile Char.isDigit = w at h hw
    split at h
    · rename_i rest hpoint
      have hf : (rest.takeWhile Char.isDigit).all Char.isDigit = true := List.all_takeWhile
      have hrest : rest.takeWhile Char.isDigit ++ rest.dropWhile Char.isDigit = rest :=
        List.takeWhile_append_dropWhile
      rw [hpoint, ← hrest]
      generalize rest.takeWhile Char.isDigit = f at h hf
      rw [Bool.and_eq_true, isExponentPart_iff] at h
      obtain ⟨hne, he⟩ := h
      -- with nothing in front of the point, there are digits behind it
      by_cases hnil : w = []
      · subst hnil
        exact .fraction ⟨by simpa using hne, hf⟩ he
      · exact .point ⟨hnil, hw⟩ hf he
    · rw [Bool.and_eq_true, isExponentPart_iff] at h
      exact .whole ⟨by simpa using h.1, hw⟩ h.2
  · intro h
    -- each rule of the grammar is one branch of the test
    cases h with
    | whole hw he => simpa [isUnsignedDecimal_whole hw.all he] using hw.ne_nil
    | point hw hf he =>
      rw [isUnsignedDecimal_point hw.all hf he]
      simp [hw.ne_nil]
    | @fraction f e hf he =>
      have hpoint : isUnsignedDecimal ([] ++ '.' :: (f ++ e)) = !([].isEmpty && f.isEmpty) :=
        isUnsignedDecimal_point rfl hf.all he
      rw [List.nil_append] at hpoint
      simpa [hpoint] using hf.ne_nil

/-! ## Leading zeros -/

/-- The test for leading zeros looks behind the sign. -/
private theorem hasLeadingZero_dropSign (cs : List Char) :
    hasLeadingZero (dropSign cs) = hasLeadingZero cs := by
  unfold dropSign
  split <;> rfl

/-- A zero is superfluous if a digit follows it. -/
private theorem hasLeadingZero_cons {c : Char} (hc : c.isDigit = true) (cs : List Char) :
    hasLeadingZero (c :: cs) = (c = '0' && cs.head?.any Char.isDigit) := by
  -- a digit is no sign, so the run of signs in front of it is empty
  rw [hasLeadingZero, dropWhile_sign (unsigned_of_isDigit hc cs)]
  cases cs with
  | nil => simp
  | cons d cs =>
    by_cases hzero : c = '0'
    · subst hzero
      rfl
    · simp [hzero]

/-- Integers of the grammar are digits without a superfluous zero in front. -/
private theorem isInteger_iff {cs : List Char} :
    IsInteger cs ↔ IsDigits cs ∧ hasLeadingZero cs = false := by
  constructor
  · intro h
    cases h with
    | zero => exact ⟨⟨List.cons_ne_nil _ _, rfl⟩, rfl⟩
    | digits hd hne hds =>
      refine ⟨⟨List.cons_ne_nil _ _, by rw [List.all_cons, hd, hds]; rfl⟩, ?_⟩
      rw [hasLeadingZero_cons hd]
      simp [hne]
  · rintro ⟨hdigits, hzero⟩
    obtain ⟨d, ds, rfl, hd, hds⟩ := hdigits.exists_cons
    rw [hasLeadingZero_cons hd] at hzero
    -- a zero stands alone, any other digit may be followed by more
    by_cases hne : d = '0'
    · subst hne
      cases ds with
      | nil => exact .zero
      | cons e es =>
        rw [List.all_cons, Bool.and_eq_true] at hds
        simp [hds.1] at hzero
    · exact .digits hd hne hds

/-- What ends digits makes no difference to a zero in front of them. -/
private theorem hasLeadingZero_digits_append {w rest : List Char} (hw : IsDigits w)
    (hrest : EndsDigits rest) : hasLeadingZero (w ++ rest) = hasLeadingZero w := by
  obtain ⟨d, ds, rfl, hd, -⟩ := hw.exists_cons
  rw [List.cons_append, hasLeadingZero_cons hd, hasLeadingZero_cons hd]
  cases ds with
  | nil =>
    cases rest with
    | nil => rfl
    | cons c rest => simp [hrest c rfl]
  | cons e ds => rfl

/-- Decimal literals are the decimal numbers without a superfluous zero in front. -/
theorem isDecimal_isInteger_iff {cs : List Char} :
    IsDecimal IsInteger cs ↔ IsDecimal IsDigits cs ∧ hasLeadingZero cs = false := by
  constructor
  · intro h
    -- a leading zero can only stand in the digits in front
    cases h with
    | @whole w e hw he =>
      obtain ⟨hdigits, hzero⟩ := isInteger_iff.1 hw
      exact ⟨.whole hdigits he, (hasLeadingZero_digits_append hdigits he.endsDigits).trans hzero⟩
    | point hw hf he =>
      obtain ⟨hdigits, hzero⟩ := isInteger_iff.1 hw
      exact ⟨.point hdigits hf he,
        (hasLeadingZero_digits_append hdigits (endsDigits_point _)).trans hzero⟩
    | fraction hf he => exact ⟨.fraction hf he, rfl⟩
  · rintro ⟨h, hzero⟩
    cases h with
    | whole hw he =>
      rw [hasLeadingZero_digits_append hw he.endsDigits] at hzero
      exact .whole (isInteger_iff.2 ⟨hw, hzero⟩) he
    | point hw hf he =>
      rw [hasLeadingZero_digits_append hw (endsDigits_point _)] at hzero
      exact .point (isInteger_iff.2 ⟨hw, hzero⟩) hf he
    | fraction hf he => exact .fraction hf he

/-- Number literals are decimal numbers behind an optional sign, without a superfluous zero. -/
private theorem isNumberLiteral_iff {cs : List Char} :
    isNumberLiteral cs = true ↔ IsDecimal IsDigits (dropSign cs) ∧ hasLeadingZero cs = false := by
  rw [isNumberLiteral, Bool.and_eq_true, isUnsignedDecimal_iff, Bool.not_eq_true', and_comm]

/-- So are the numbers of module code. -/
private theorem isModuleNumber_iff {cs : List Char} :
    IsModuleNumber cs ↔ IsDecimal IsDigits (dropSign cs) ∧ hasLeadingZero cs = false := by
  have hunsigned : ∀ body, IsDecimal IsInteger body → Unsigned body :=
    fun body hbody => (isDecimal_isInteger_iff.1 hbody).1.unsigned
  rw [IsModuleNumber, signed_iff hunsigned, isDecimal_isInteger_iff, hasLeadingZero_dropSign]

/-! ## Floating-point numbers -/

/-- No character of numbers is a letter with which a word starts. -/
private theorem toLower_of_isNumberChar {c : Char} (h : isNumberChar c = true) :
    c.toLower ≠ 'i' ∧ c.toLower ≠ 'n' := by
  rw [isNumberChar, Bool.or_eq_true, List.contains_iff_mem] at h
  rcases h with hdigit | hmark
  · -- a digit is no capital letter
    have hcapital : ¬(c.val ≥ 'A'.val ∧ c.val ≤ 'Z'.val) := by grind [Char.isDigit]
    have hlower : c.toLower = c := dif_neg hcapital
    rw [hlower]
    constructor <;> rintro rfl <;> cases hdigit
  · simp only [List.mem_cons, List.not_mem_nil, or_false] at hmark
    rcases hmark with rfl | rfl | rfl | rfl | rfl <;> decide

/-- The words start with a letter that is in no number. -/
private theorem IsFloatWord.exists_cons {cs : List Char} (h : IsFloatWord cs) :
    ∃ c cs', cs = c :: cs' ∧ isNumberChar c = false := by
  -- two words start with an `i` and one with an `n`
  have hhead : ∀ word ∈ floatWords, ∃ cs', word = 'i' :: cs' ∨ word = 'n' :: cs' := by
    intro word hword
    simp only [floatWords, List.mem_cons, List.not_mem_nil, or_false] at hword
    rcases hword with rfl | rfl | rfl
    · exact ⟨_, .inl rfl⟩
    · exact ⟨_, .inl rfl⟩
    · exact ⟨_, .inr rfl⟩
  obtain ⟨cs', hcs⟩ := hhead _ h
  cases cs with
  | nil => rcases hcs with hcs | hcs <;> cases hcs
  | cons c cs =>
    refine ⟨c, cs, rfl, ?_⟩
    rw [← Bool.not_eq_true]
    intro hnumber
    obtain ⟨hi, hn⟩ := toLower_of_isNumberChar hnumber
    rcases hcs with hcs | hcs
    · exact hi (List.cons.inj hcs).1
    · exact hn (List.cons.inj hcs).1

/-- A word starts with a letter, and so with no sign. -/
theorem IsFloatWord.unsigned {cs : List Char} (h : IsFloatWord cs) : Unsigned cs := by
  obtain ⟨c, cs', rfl, hc⟩ := h.exists_cons
  intro d hd
  cases hd
  constructor <;> rintro rfl <;> cases hc

/-- Behind its sign, a floating-point number is a decimal number or a word. -/
private theorem isFloat_iff {cs : List Char} :
    IsFloat cs ↔ IsDecimal IsDigits (dropSign cs) ∨ IsFloatWord (dropSign cs) :=
  signed_iff fun _ hbody => hbody.elim IsDecimal.unsigned IsFloatWord.unsigned

/-- Characters of numbers do not make a word. -/
private theorem not_isFloatWord_dropSign {cs : List Char} (h : cs.all isNumberChar = true) :
    ¬IsFloatWord (dropSign cs) := by
  intro hword
  obtain ⟨sign, -, hcs⟩ := exists_sign cs
  obtain ⟨c, cs', hbody, hc⟩ := hword.exists_cons
  rw [List.all_eq_true] at h
  -- the first letter of the word would be among the characters
  have hmem : c ∈ cs := by
    rw [hcs, hbody]
    exact List.mem_append_right _ List.mem_cons_self
  rw [h c hmem] at hc
  cases hc

/-- A number literal passes three tests, and what passes them is one: no zero stands in front of
    another digit, every character is one of numbers, and it reads as a floating-point number. -/
private theorem isNumberLiteral_iff_tests {cs : List Char} :
    isNumberLiteral cs = true ↔
      hasLeadingZero cs = false ∧ cs ≠ [] ∧ cs.all isNumberChar = true ∧ IsFloat cs := by
  constructor
  · intro h
    obtain ⟨hdecimal, hzero⟩ := isNumberLiteral_iff.1 h
    refine ⟨hzero, ?_, all_isNumberChar_of_isNumberLiteral h, isFloat_iff.2 (.inl hdecimal)⟩
    rintro rfl
    cases h
  · -- the characters leave no word, and a decimal number is not empty anyway
    rintro ⟨hzero, -, hchars, hfloat⟩
    exact isNumberLiteral_iff.2
      ⟨(isFloat_iff.1 hfloat).resolve_right (not_isFloatWord_dropSign hchars), hzero⟩

/-! ## Values -/

/-- Quotes make a text longer. -/
private theorem length_lt_length_quote (cs : List Char) : cs.length < (quote cs).length := by
  -- escaping makes no character shorter
  have hinner : cs.length ≤ (cs.flatMap escaped).length := by
    induction cs with
    | nil => exact Nat.le_refl _
    | cons c cs ih =>
      have hone : 1 ≤ (escaped c).length := by
        rw [escaped]
        split <;> simp
      rw [List.flatMap_cons, List.length_append, List.length_cons]
      omega
  have hquote : quote cs = '"' :: cs.flatMap escaped ++ ['"'] := rfl
  rw [hquote, List.length_append, List.length_cons]
  omega

/-- A value is written bare exactly if it is a number literal. -/
private theorem renderValue_valueOf_eq_iff {cs : List Char} :
    renderValue (valueOf cs) = cs ↔ isNumberLiteral cs = true := by
  rw [valueOf]
  split
  · rename_i h
    simp [renderValue, h]
  · -- the quotes make a text longer
    rename_i h
    refine iff_of_false (fun heq => ?_) h
    have hlength := length_lt_length_quote cs
    rw [renderValue, String.toList_ofList] at heq
    rw [heq] at hlength
    exact Nat.lt_irrefl _ hlength

/-- Number literals are the numbers of module code: decimal literals behind an optional sign. The
    three tests tell them apart, and they are the values that are written bare. -/
theorem isNumberLiteral_exact (cs : List Char) :
    (isNumberLiteral cs = true ↔ IsModuleNumber cs) ∧
      (isNumberLiteral cs = true ↔
        hasLeadingZero cs = false ∧ cs ≠ [] ∧ cs.all isNumberChar = true ∧ IsFloat cs) ∧
      (renderValue (valueOf cs) = cs ↔ IsModuleNumber cs) := by
  -- both are a decimal number behind a sign, without a superfluous zero
  have hexact : isNumberLiteral cs = true ↔ IsModuleNumber cs :=
    isNumberLiteral_iff.trans isModuleNumber_iff.symm
  exact ⟨hexact, isNumberLiteral_iff_tests, renderValue_valueOf_eq_iff.trans hexact⟩

end IconCompiler.Style
