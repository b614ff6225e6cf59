import IconCompiler.Proofs.Jsx.Styles

/-!
# Reading object literals

A style is written as the body of an object literal: for each declaration a key, a colon, a value
and a comma. The reader here knows nothing of declarations. It takes a key and a value as they come,
either quoted, with a backslash standing for the character behind it, or up to the next colon or
comma. Nothing is lost on the way: quotes and backslashes inside quotes have a backslash in front of
them, bare keys are identifiers and have no colon, and numbers have no comma.

## Key results

- `readEntry_renderEntry`: a declaration is read back, whatever follows it
- `readLiteral_render`: the object literal of a style text is read back as its declarations
-/

namespace IconCompiler.Style

open Jsx

/-! ## The reader -/

/-- Reads a text up to the double quote that ends it: the text and what follows the quote. A
    backslash stands for the character behind it; `escaped` says whether there was one. -/
def readQuoted : (escaped : Bool) → List Char → Option (List Char × List Char)
  | _, [] => none
  | true, c :: cs => (readQuoted false cs).map fun p => (c :: p.1, p.2)
  | false, c :: cs =>
    if c = '\\' then readQuoted true cs
    else if c = '"' then some ([], cs)
    else (readQuoted false cs).map fun p => (c :: p.1, p.2)

/-- Reads a key or a value: whether it is quoted, its text, and what follows it. Without quotes it
    goes on to the next `stop`. -/
def readPart (stop : Char) : List Char → Option (Bool × List Char × List Char)
  | [] => some (false, [], [])
  | c :: cs =>
    if c = '"' then (readQuoted false cs).map fun p => (true, p)
    else some (false, (c :: cs).takeWhile (· ≠ stop), (c :: cs).dropWhile (· ≠ stop))

/-- The text behind a mark and a space. -/
def afterMark (mark : Char) : List Char → Option (List Char)
  | c :: d :: cs => if c = mark ∧ d = ' ' then some cs else none
  | _ => none

/-- Reads a declaration, and the comma and space that end it. A quoted value is a text, any other
    one a number. -/
def readEntry (cs : List Char) : Option ((String × StyleValue) × List Char) := do
  let (_, key, cs) ← readPart ':' cs
  let cs ← afterMark ':' cs
  let (quoted, value, cs) ← readPart ',' cs
  let cs ← afterMark ',' cs
  let value := String.ofList value
  return ((String.ofList key, if quoted then .text value else .number value), cs)

/-- A quoted text takes the quote that ends it at least. -/
private theorem readQuoted_length {escaped : Bool} {cs value rest : List Char}
    (h : readQuoted escaped cs = some (value, rest)) : rest.length < cs.length := by
  fun_induction readQuoted escaped cs generalizing value with
  | case1 => cases h
  | case2 c cs ih | case5 c cs _ _ ih =>
    obtain ⟨⟨value', rest'⟩, hread, heq⟩ := Option.map_eq_some_iff.1 h
    cases heq
    have hrest : rest'.length < cs.length := ih hread
    simp only [List.length_cons]
    omega
  | case3 cs ih =>
    have hrest := ih h
    simp only [List.length_cons]
    omega
  | case4 cs =>
    cases h
    simp

/-- A key or a value takes no more than there is. -/
private theorem readPart_length {stop : Char} {cs value rest : List Char} {quoted : Bool}
    (h : readPart stop cs = some (quoted, value, rest)) : rest.length ≤ cs.length := by
  cases cs with
  | nil =>
    cases h
    exact Nat.le_refl _
  | cons c cs =>
    rw [readPart] at h
    split at h
    · obtain ⟨⟨value', rest'⟩, hread, heq⟩ := Option.map_eq_some_iff.1 h
      cases heq
      have hrest := readQuoted_length hread
      simp only [List.length_cons]
      omega
    · cases h
      exact (List.dropWhile_sublist _).length_le

/-- A mark and its space are taken. -/
private theorem afterMark_length {mark : Char} {cs rest : List Char}
    (h : afterMark mark cs = some rest) :
    rest.length < cs.length := by
  unfold afterMark at h
  split at h
  · split at h
    · cases h
      simp only [List.length_cons]
      omega
    · cases h
  · cases h

/-- A declaration takes a character at least, so reading comes to an end. -/
private theorem readEntry_length {cs rest : List Char} {e : String × StyleValue}
    (h : readEntry cs = some (e, rest)) : rest.length < cs.length := by
  simp only [readEntry, Option.bind_eq_bind, Option.bind_eq_some_iff, Option.pure_def,
    Option.some.injEq, Prod.mk.injEq] at h
  obtain ⟨⟨_, key, cs₁⟩, hkey, cs₂, hcolon, ⟨quoted, value, cs₃⟩, hvalue, cs₄, hcomma, -, rfl⟩ := h
  -- a mark is taken twice, and each takes two characters
  have h₁ := readPart_length hkey
  have h₂ := afterMark_length hcolon
  have h₃ := readPart_length hvalue
  have h₄ := afterMark_length hcomma
  dsimp only at *
  omega

/-- Reads declarations up to the end. -/
def readEntries (cs : List Char) : Option (List (String × StyleValue)) :=
  match cs with
  | [] => some []
  | c :: cs =>
    match h : readEntry (c :: cs) with
    | none => none
    | some (e, rest) =>
      have : rest.length ≤ cs.length := Nat.le_of_lt_succ (readEntry_length h)
      (readEntries rest).map (e :: ·)
termination_by cs.length
decreasing_by simp only [List.length_cons]; omega

/-- Reads the body of an object literal. -/
def readLiteral (text : String) : Option (List (String × StyleValue)) :=
  readEntries text.toList

/-! ## Reading what was written -/

/-- What is written between quotes is read up to the quote that ends it. -/
private theorem readQuoted_escaped (cs rest : List Char) :
    readQuoted false (cs.flatMap escaped ++ '"' :: rest) = some (cs, rest) := by
  induction cs with
  | nil => rfl
  | cons c cs ih =>
    rw [List.flatMap_cons, List.append_assoc, escaped]
    split
    · -- the backslash in front stands for the character
      rw [List.cons_append, List.singleton_append, readQuoted, if_pos rfl, readQuoted, ih]
      rfl
    · rename_i hc
      rw [Bool.or_eq_true, decide_eq_true_eq, decide_eq_true_eq, not_or] at hc
      rw [List.singleton_append, readQuoted, if_neg hc.2, if_neg hc.1, ih]
      rfl

/-- A quoted text is read back as one. -/
private theorem readPart_quote (stop : Char) (cs rest : List Char) :
    readPart stop (quote cs ++ rest) = some (true, cs, rest) := by
  have hquote : quote cs = '"' :: cs.flatMap escaped ++ ['"'] := rfl
  rw [hquote, List.append_assoc, List.singleton_append, List.cons_append, readPart, if_pos rfl,
    readQuoted_escaped]
  rfl

/-- A text without quotes is read up to the next stop, if it does not hold the stop. -/
private theorem readPart_bare {stop : Char} {cs : List Char} (h : avoids [stop, '"'] cs = true)
    (hstop : stop ≠ '"') (rest : List Char) :
    readPart stop (cs ++ stop :: rest) = some (false, cs, stop :: rest) := by
  have hmem : stop ∉ cs ∧ '"' ∉ cs := by
    simp only [avoids, List.all_eq_true, List.contains_cons, Bool.not_eq_true',
      Bool.or_eq_false_iff, beq_eq_false_iff_ne] at h
    exact ⟨fun hc => (h _ hc).1 rfl, fun hc => (h _ hc).2.1 rfl⟩
  have htake : ∀ c ∈ cs, decide (c ≠ stop) = true := by
    intro c hc
    exact decide_eq_true fun heq => hmem.1 (heq ▸ hc)
  -- the text is taken up to the stop, and the stop is the first one
  have hparts : (cs ++ stop :: rest).takeWhile (· ≠ stop) = cs ∧
      (cs ++ stop :: rest).dropWhile (· ≠ stop) = stop :: rest := by
    rw [List.takeWhile_append_of_pos htake, List.dropWhile_append_of_pos htake]
    simp
  cases cs with
  | nil =>
    rw [List.nil_append] at hparts ⊢
    rw [readPart, if_neg hstop, hparts.1, hparts.2]
  | cons c cs =>
    rw [List.mem_cons, List.mem_cons, not_or, not_or] at hmem
    rw [List.cons_append] at hparts ⊢
    rw [readPart, if_neg (Ne.symm hmem.2.1), hparts.1, hparts.2]

set_option maxRecDepth 8000 in
/-- A key is read back, whether it is written in quotes or bare. -/
private theorem readPart_renderKey (key : String) (rest : List Char) :
    ∃ quoted, readPart ':' (renderKey key ++ ':' :: rest) =
      some (quoted, key.toList, ':' :: rest) := by
  rw [renderKey]
  split
  · -- an identifier holds neither a colon nor a quote
    rename_i hbare
    have htable : [':', '"'].any Naming.continuesIdentifier = false := by decide
    have havoids := avoids_of_all htable (all_continuesIdentifier_of_isIdentifier hbare)
    exact ⟨false, readPart_bare havoids (by decide) rest⟩
  · exact ⟨true, readPart_quote ':' key.toList (':' :: rest)⟩

/-- A value is read back, and its quotes tell a text from a number. -/
private theorem readPart_renderValue {value : StyleValue}
    (h : ∀ s, value = .number s → isNumberLiteral s.toList = true) (rest : List Char) :
    ∃ quoted cs, readPart ',' (renderValue value ++ ',' :: rest) = some (quoted, cs, ',' :: rest) ∧
      (if quoted then .text (String.ofList cs) else .number (String.ofList cs)) = value := by
  cases value with
  | text s =>
    refine ⟨true, s.toList, readPart_quote ',' s.toList (',' :: rest), ?_⟩
    rw [if_pos rfl, String.ofList_toList]
  | number s =>
    -- number literals hold neither a comma nor a quote
    have htable : [',', '"'].any isNumberChar = false := by decide
    have havoids := avoids_of_all htable (all_isNumberChar_of_isNumberLiteral (h s rfl))
    refine ⟨false, s.toList, readPart_bare havoids (by decide) rest, ?_⟩
    rw [if_neg Bool.false_ne_true, String.ofList_toList]

/-- A declaration is read back, whatever follows it. -/
theorem readEntry_renderEntry {e : String × StyleValue}
    (h : ∀ s, e.2 = .number s → isNumberLiteral s.toList = true) (rest : List Char) :
    readEntry (renderEntry e ++ rest) = some (e, rest) := by
  -- the written declaration, cut at its marks
  have htext : renderEntry e ++ rest =
      renderKey e.1 ++ ':' :: (' ' :: (renderValue e.2 ++ ',' :: (' ' :: rest))) := by
    simp [renderEntry]
  obtain ⟨_, hkey⟩ := readPart_renderKey e.1 (' ' :: (renderValue e.2 ++ ',' :: (' ' :: rest)))
  obtain ⟨quoted, cs, hvalue, heq⟩ := readPart_renderValue h (' ' :: rest)
  rw [htext, readEntry]
  simp [hkey, hvalue, heq, afterMark]

/-- Declarations are read back one after another. -/
private theorem readEntries_flatMap {es : List (String × StyleValue)}
    (h : ∀ e ∈ es, ∀ s, e.2 = .number s → isNumberLiteral s.toList = true) :
    readEntries (es.flatMap renderEntry) = some es := by
  induction es with
  | nil => rw [List.flatMap_nil, readEntries]
  | cons e es ih =>
    rw [List.forall_mem_cons] at h
    have hread := readEntry_renderEntry h.1 (es.flatMap renderEntry)
    rw [List.flatMap_cons]
    -- the reader looks whether there is a character, which a written declaration has
    generalize renderEntry e ++ es.flatMap renderEntry = cs at hread
    cases cs with
    | nil => cases hread
    | cons c cs =>
      rw [readEntries]
      split
      · rename_i hnone
        rw [hnone] at hread
        cases hread
      · rename_i hsome
        rw [hsome] at hread
        cases hread
        rw [ih h.2]
        rfl

/-- The object literal of a style text is read back as its declarations: with their keys and values,
    in order, and with texts and numbers told apart. -/
theorem readLiteral_render (text : String) :
    readLiteral (render (read text)) = some (read text).entries := by
  rw [readLiteral, render, String.toList_ofList, renderChars]
  exact readEntries_flatMap fun e he s hs => isNumberLiteral_of_mem_read he hs

end IconCompiler.Style
