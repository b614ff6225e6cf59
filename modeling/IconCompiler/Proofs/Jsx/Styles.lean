import IconCompiler.Proofs.Jsx.Reader
import IconCompiler.Proofs.OrderedMap
import IconCompiler.Style

/-!
# Reading styles

A style is written as the body of an object literal. Read in an expression, its strings end where
they are meant to exactly if no end of a line stands between quotes: quotes and backslashes in them
are escaped, bare keys are identifiers, and numbers are number literals.

## Key results

- `map_fst_declarationMarks`: declarations are written with the characters of their marks
- `follow_declarationMarks`: where a declaration can be followed
-/

namespace IconCompiler.Jsx

/-! ## Marks of declarations -/

/-- A character of a quoted text: a backslash stands before quotes and backslashes. -/
def escaped (c : Char) : List Char :=
  if c = '"' || c = '\\' then ['\\', c] else [c]

/-- A text between double quotes. -/
def quoteMarks (cs : List Char) : List (Char × Role) :=
  marked .quote ['"'] ++ cs.flatMap (fun c => marked .quoted (escaped c)) ++ marked .quote ['"']

/-- The key of a declaration. -/
def keyMarks (key : String) : List (Char × Role) :=
  if Naming.isIdentifier key.toList then marked .code key.toList else quoteMarks key.toList

/-- The value of a declaration. -/
def valueMarks : StyleValue → List (Char × Role)
  | .text s => quoteMarks s.toList
  | .number s => marked .code s.toList

/-- A declaration in an object literal. -/
def declarationMarks (e : String × StyleValue) : List (Char × Role) :=
  keyMarks e.1 ++ marked .code [':', ' '] ++ valueMarks e.2 ++ marked .code [',', ' ']

/-- A quoted text is written with the characters of its marks. -/
private theorem map_fst_quoteMarks (cs : List Char) :
    (quoteMarks cs).map Prod.fst = Style.quote cs := by
  simp [quoteMarks, escaped, Style.quote, map_fst_marked, List.map_flatMap]

/-- Declarations are written with the characters of their marks. -/
theorem map_fst_declarationMarks (e : String × StyleValue) :
    (declarationMarks e).map Prod.fst = Style.renderEntry e := by
  have hkey : (keyMarks e.1).map Prod.fst = Style.renderKey e.1 := by
    rw [keyMarks, Style.renderKey]
    split
    · exact map_fst_marked _ _
    · exact map_fst_quoteMarks _
  have hvalue : (valueMarks e.2).map Prod.fst = Style.renderValue e.2 := by
    cases e.2 with
    | text s => exact map_fst_quoteMarks _
    | number s => exact map_fst_marked _ _
  simp only [declarationMarks, List.map_append, map_fst_marked, hkey, hvalue, Style.renderEntry]

/-! ## Expressions -/

/-- The characters with which an expression is more than numbers and names. -/
def codeSyntax : List Char :=
  ['{', '}', '"', '\'', '/', '\x60']

/-- The characters that end a line. -/
def lineEnds : List Char :=
  ['\n', '\r']

/-- An expression goes on over all characters but braces, quotes, slashes and backticks. -/
private theorem follow_code (inTag : Bool) (depth : Nat) (cs : List Char) :
    follow (.code inTag depth) (marked .code cs) =
      if avoids codeSyntax cs then some (.code inTag depth) else none := by
  refine follow_marked_of_avoids (fun c hc => ?_) ?_ cs
  · simp only [codeSyntax, List.mem_cons, List.not_mem_nil, or_false, not_or] at hc
    simp [Reader.step, Reader.stepCode, hc]
  · -- where a closing brace leads depends on the depth, but not that it is a brace
    cases depth <;> rfl

/-- A text between double quotes is followed to its end exactly if it has no end of a line. -/
private theorem follow_quoteMarks (inTag : Bool) (depth : Nat) (cs : List Char) :
    follow (.code inTag depth) (quoteMarks cs) =
      if avoids lineEnds cs then some (.code inTag depth) else none := by
  -- a backslash leads out of the string for one character only
  have hinner : ∀ c, follow (.string inTag depth '"' false) (marked .quoted (escaped c)) =
      if !lineEnds.contains c then some (.string inTag depth '"' false) else none := by
    intro c
    by_cases hc : c = '"' ∨ c = '\\' ∨ c = '\n' ∨ c = '\r'
    · rcases hc with rfl | rfl | rfl | rfl <;> rfl
    · rw [not_or, not_or, not_or] at hc
      have hstep : Reader.step (.string inTag depth '"' false) c =
          some (.quoted, .string inTag depth '"' false) := by
        simp [Reader.step, hc]
      simp [escaped, marked, follow, hc, hstep, lineEnds]
  -- the quote leads into the string, and the one at the end out of it again
  have hopen : follow (.code inTag depth) (marked .quote ['"']) =
      some (.string inTag depth '"' false) := rfl
  rw [quoteMarks, follow_append, follow_append, hopen, Option.bind_some,
    follow_flatMap fun c _ => hinner c, avoids]
  cases cs.all fun c => !lineEnds.contains c <;> rfl

/-- Bare keys are made of letters, digits, `_` and `$`. -/
theorem all_continuesIdentifier_of_isIdentifier {cs : List Char}
    (h : Naming.isIdentifier cs = true) : cs.all Naming.continuesIdentifier = true := by
  cases cs with
  | nil => rfl
  | cons c cs =>
    rw [Naming.isIdentifier, Bool.and_eq_true] at h
    -- what can start an identifier can also continue it
    have hc : Naming.continuesIdentifier c = true := by
      simp only [Naming.startsIdentifier, Naming.continuesIdentifier, Text.isAlphanumeric,
        Bool.or_eq_true] at h ⊢
      exact h.1.imp_left fun h' => h'.imp_left .inl
    rw [List.all_cons, hc, h.2]
    rfl

set_option maxRecDepth 8000 in
/-- A bare key is read as part of the expression around it. -/
private theorem avoids_codeSyntax_of_isIdentifier {cs : List Char}
    (h : Naming.isIdentifier cs = true) :
    avoids codeSyntax cs = true := by
  have htable : codeSyntax.any Naming.continuesIdentifier = false := by decide
  exact avoids_of_all htable (all_continuesIdentifier_of_isIdentifier h)

/-- The characters of number literals. -/
def isNumberChar (c : Char) : Bool :=
  c.isDigit || ['+', '-', '.', 'e', 'E'].contains c

/-- A sign is a character of number literals. -/
private theorem all_isNumberChar_of_dropSign {cs : List Char}
    (h : (Style.dropSign cs).all isNumberChar = true) : cs.all isNumberChar = true := by
  unfold Style.dropSign at h
  split at h
  · exact h
  · exact h
  · exact h

/-- Digits are characters of number literals. -/
private theorem all_isNumberChar_of_digits {cs : List Char} (h : cs.all Char.isDigit = true) :
    cs.all isNumberChar = true := by
  rw [List.all_eq_true] at *
  exact fun c hc => by rw [isNumberChar, h c hc]; rfl

/-- Exponents are made of characters of number literals. -/
private theorem all_isNumberChar_of_isExponentPart {cs : List Char}
    (h : Style.isExponentPart cs = true) :
    cs.all isNumberChar = true := by
  cases cs with
  | nil => rfl
  | cons c cs =>
    simp only [Style.isExponentPart, Bool.and_eq_true, Bool.or_eq_true, decide_eq_true_eq] at h
    have hc : isNumberChar c = true := by
      rcases h.1.1 with rfl | rfl <;> decide
    rw [List.all_cons, hc,
      all_isNumberChar_of_dropSign (all_isNumberChar_of_digits h.2)]
    rfl

/-- Number literals are made of digits, signs, points and exponent marks. -/
theorem all_isNumberChar_of_isNumberLiteral {cs : List Char}
    (h : Style.isNumberLiteral cs = true) : cs.all isNumberChar = true := by
  -- the sign first, then the digits in front of the point
  apply all_isNumberChar_of_dropSign
  rw [Style.isNumberLiteral, Bool.and_eq_true] at h
  generalize Style.dropSign cs = cs at h
  have hwhole := all_isNumberChar_of_digits (List.all_takeWhile (p := Char.isDigit) (l := cs))
  rw [← List.takeWhile_append_dropWhile (p := Char.isDigit) (l := cs), List.all_append, hwhole]
  -- behind the digits there is a point with what follows it, or an exponent at once
  have hdecimal := h.2
  simp only [Style.isUnsignedDecimal] at hdecimal
  split at hdecimal
  · rename_i rest hrest
    rw [hrest, List.all_cons]
    rw [Bool.and_eq_true] at hdecimal
    have hfraction :=
      all_isNumberChar_of_digits (List.all_takeWhile (p := Char.isDigit) (l := rest))
    rw [← List.takeWhile_append_dropWhile (p := Char.isDigit) (l := rest), List.all_append,
      hfraction, all_isNumberChar_of_isExponentPart hdecimal.2]
    rfl
  · rw [Bool.and_eq_true] at hdecimal
    rw [all_isNumberChar_of_isExponentPart hdecimal.2]
    rfl

/-- A number literal is read as part of the expression around it. -/
private theorem avoids_codeSyntax_of_isNumberLiteral {cs : List Char}
    (h : Style.isNumberLiteral cs = true) : avoids codeSyntax cs = true := by
  have htable : codeSyntax.any isNumberChar = false := by decide
  exact avoids_of_all htable (all_isNumberChar_of_isNumberLiteral h)

/-- The numbers of a style that was read are number literals. -/
theorem isNumberLiteral_of_mem_read {text : String} {e : String × StyleValue}
    (he : e ∈ (Style.read text).entries) {s : String} (hs : e.2 = .number s) :
    Style.isNumberLiteral s.toList = true := by
  -- an entry of the style comes from one of the pieces of the text
  obtain ⟨piece, -, hpiece⟩ := List.mem_filterMap.1 (OrderedMap.mem_of_mem_entries_ofList he)
  unfold Style.declarationEntry? at hpiece
  split at hpiece
  · cases hpiece
  · split at hpiece
    · cases hpiece
    · cases hpiece
      dsimp only at hs
      unfold Style.valueOf at hs
      split at hs
      · -- a value becomes a number only if the test for literals says so
        rename_i hliteral
        cases hs
        rwa [String.toList_ofList]
      · cases hs

/-- Whether a key ends no line between quotes. -/
def keyIsOnOneLine (key : String) : Bool :=
  Naming.isIdentifier key.toList || avoids lineEnds key.toList

/-- Whether a value ends no line between quotes. -/
def valueIsOnOneLine : StyleValue → Bool
  | .text s => avoids lineEnds s.toList
  | .number _ => true

/-- A key is followed exactly if it is bare or ends no line between its quotes. -/
private theorem follow_keyMarks (inTag : Bool) (depth : Nat) (key : String) :
    follow (.code inTag depth) (keyMarks key) =
      if keyIsOnOneLine key then some (.code inTag depth) else none := by
  rw [keyMarks, keyIsOnOneLine]
  cases hbare : Naming.isIdentifier key.toList with
  | true =>
    rw [if_pos rfl, follow_code, avoids_codeSyntax_of_isIdentifier hbare]
    rfl
  | false =>
    rw [if_neg Bool.false_ne_true, follow_quoteMarks, Bool.false_or]

/-- A value is followed exactly if it is a number or ends no line between its quotes. -/
private theorem follow_valueMarks (inTag : Bool) (depth : Nat) {value : StyleValue}
    (h : ∀ s, value = .number s → Style.isNumberLiteral s.toList = true) :
    follow (.code inTag depth) (valueMarks value) =
      if valueIsOnOneLine value then some (.code inTag depth) else none := by
  cases value with
  | text s => exact follow_quoteMarks inTag depth s.toList
  | number s =>
    rw [valueMarks, follow_code, avoids_codeSyntax_of_isNumberLiteral (h s rfl)]
    rfl

/-- A declaration is followed exactly if neither its key nor its value
    ends a line between quotes. -/
theorem follow_declarationMarks (inTag : Bool) (depth : Nat) {e : String × StyleValue}
    (h : ∀ s, e.2 = .number s → Style.isNumberLiteral s.toList = true) :
    follow (.code inTag depth) (declarationMarks e) =
      if keyIsOnOneLine e.1 && valueIsOnOneLine e.2 then some (.code inTag depth) else none := by
  have hcolon : follow (.code inTag depth) (marked .code [':', ' ']) = some (.code inTag depth) :=
    rfl
  have hcomma : follow (.code inTag depth) (marked .code [',', ' ']) = some (.code inTag depth) :=
    rfl
  rw [declarationMarks, follow_append, follow_append, follow_append, follow_keyMarks]
  -- a key that ends a line stops the reader in front of the value
  cases keyIsOnOneLine e.1 with
  | false => rfl
  | true =>
    rw [if_pos rfl, Option.bind_some, hcolon, Option.bind_some, follow_valueMarks inTag depth h,
      Bool.true_and]
    cases valueIsOnOneLine e.2 <;> rfl

end IconCompiler.Jsx
