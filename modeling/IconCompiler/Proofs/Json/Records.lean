import IconCompiler.Json.Record
import IconCompiler.Proofs.Json.Strings

/-!
# What JSON readers take

`Takes r text rest a` says that a reader takes a text that stands in front of another one, and gives
`a`, wherever the two stand. Readers that run one after another take their texts one after another,
so what a record or list takes is put together from what its fields or elements take.

## Key results

- `takes_string`: a text between quotes
- `takes_objectFields_cons`, `takes_objectFields_nil`: the fields of an object
- `takes_listElements`: the elements of a list
- `run_eq_ok`: a reader that takes the whole text
-/

namespace IconCompiler.Json.Reader

variable {α β ρ : Type}

/-- Whether a reader takes a text in front of another one, wherever the two stand, and gives a
    value. -/
def Takes (r : Reader α) (text rest : List Char) (a : α) : Prop :=
  ∀ pos, r ⟨text ++ rest, pos⟩ = .ok (a, ⟨rest, pos.afterAll text⟩)

section

variable {r : Reader α} {f : α → Reader β} {a : α} {b : β} {text text' rest : List Char}

theorem takes_pure (a : α) (rest : List Char) : Takes (pure a) [] rest a :=
  fun _ => rfl

/-- Readers that run one after another take their texts one after another. -/
theorem Takes.bind (h : Takes r text (text' ++ rest) a) (h' : Takes (f a) text' rest b) :
    Takes (r >>= f) (text ++ text') rest b := by
  intro pos
  have hfirst := h pos
  have hsecond := h' (pos.afterAll text)
  show Except.bind (r _) (fun p => f p.1 p.2) = _
  -- the second reader starts where the first one stopped
  rw [List.append_assoc, hfirst, Position.afterAll_append]
  exact hsecond

/-- A reader that takes nothing goes behind another one. -/
theorem Takes.bind_last (h : Takes r text rest a) (h' : Takes (f a) [] rest b) :
    Takes (r >>= f) text rest b := by
  rw [← List.append_nil text]
  exact h.bind h'

private theorem Takes.bind_nil (h : Takes r [] (text ++ rest) a) (h' : Takes (f a) text rest b) :
    Takes (r >>= f) text rest b :=
  h.bind h'

private theorem Takes.bind_cons {c : Char} (h : Takes r [c] (text ++ rest) a)
    (h' : Takes (f a) text rest b) : Takes (r >>= f) (c :: text) rest b :=
  h.bind h'

end

/-! ## Characters -/

private theorem takes_advance (c : Char) (rest : List Char) : Takes advance [c] rest () :=
  fun _ => rfl

private theorem takes_peek (rest : List Char) : Takes peek [] rest rest.head? :=
  fun _ => rfl

/-- Whether a text is white space. -/
def IsSpaces (text : List Char) : Prop :=
  ∀ c ∈ text, isSpace c = true

variable {spaces rest : List Char} {c : Char}

/-- White space is taken up to the first character that is none. -/
private theorem takes_takeWhile_isSpace (hspaces : IsSpaces spaces)
    (hrest : ∀ c ∈ rest.head?, isSpace c = false) :
    Takes (takeWhile isSpace) spaces rest spaces := by
  intro pos
  -- what follows starts with no white space, so none of it is taken
  have hstop : rest.takeWhile isSpace = [] ∧ rest.dropWhile isSpace = rest := by
    cases rest with
    | nil => exact ⟨rfl, rfl⟩
    | cons c rest => simp [hrest c rfl]
  simp only [takeWhile, List.takeWhile_append_of_pos hspaces,
    List.dropWhile_append_of_pos hspaces, hstop, List.append_nil]

/-- The first character behind white space is looked at, and the white space is taken. -/
private theorem takes_peekToken (hspaces : IsSpaces spaces)
    (hrest : ∀ c ∈ rest.head?, isSpace c = false) :
    Takes peekToken spaces rest rest.head? := by
  refine (takes_takeWhile_isSpace hspaces hrest).bind_last ?_
  exact takes_peek rest

/-- The character is seen if it is no white space itself. -/
private theorem takes_peekToken_cons (hspaces : IsSpaces spaces) (hc : isSpace c = false)
    (rest : List Char) : Takes peekToken spaces (c :: rest) (some c) :=
  takes_peekToken hspaces fun d hd => by rwa [← Option.some.inj hd]

/-- Where a value is expected, its first character is looked at. -/
private theorem takes_peekValue (hspaces : IsSpaces spaces) (hc : isSpace c = false)
    (rest : List Char) :
    Takes peekValue spaces (c :: rest) c := by
  refine (takes_peekToken_cons hspaces hc rest).bind_last ?_
  exact takes_pure c _

/-- A colon that follows a key at once. -/
private theorem takes_colon (rest : List Char) : Takes colon [':'] rest () := by
  refine (takes_peekToken_cons (List.forall_mem_nil _) rfl rest).bind_nil ?_
  exact takes_advance ':' rest

/-! ## Strings -/

/-- A text behind its opening quote, with the closing one. -/
private theorem takes_stringBody (s : String) (rest : List Char) :
    Takes stringBody (s.toList.flatMap escapeChar ++ ['"']) rest s := by
  intro pos
  rw [stringBody, List.append_assoc, List.singleton_append, takeString_flatMap_escapeChar]
  show Except.ok (String.ofList s.toList, _) = _
  rw [String.ofList_toList]

/-- A text between quotes, with white space in front. -/
theorem takes_string (expected : String) (hspaces : IsSpaces spaces) (s : String)
    (rest : List Char) : Takes (string expected) (spaces ++ quote s) rest s := by
  refine (takes_peekValue hspaces rfl _).bind ?_
  exact (takes_advance '"' _).bind_cons (takes_stringBody s rest)

/-! ## Records -/

/-- The first key of an object stands behind white space. -/
private theorem takes_hasKey_first (hspaces : IsSpaces spaces) (rest : List Char) :
    Takes (hasKey true) spaces ('"' :: rest) true := by
  refine (takes_peekToken_cons hspaces rfl rest).bind_last ?_
  exact takes_pure true _

/-- Any other key stands behind a comma, and white space behind that. -/
private theorem takes_hasKey_next (hspaces : IsSpaces spaces) (rest : List Char) :
    Takes (hasKey false) (',' :: spaces) ('"' :: rest) true := by
  refine (takes_peekToken_cons (List.forall_mem_nil _) rfl _).bind_nil ?_
  refine (takes_advance ',' _).bind_cons ?_
  refine (takes_peekToken_cons hspaces rfl rest).bind_last ?_
  exact takes_pure true _

/-- Where the brace stands, no key is found. -/
private theorem takes_hasKey_end (first : Bool) (hspaces : IsSpaces spaces) (rest : List Char) :
    Takes (hasKey first) spaces ('}' :: rest) false := by
  refine (takes_peekToken_cons hspaces rfl rest).bind_last ?_
  exact takes_pure false _

/-- What stands in front of a key or element: white space, behind a comma unless it is the first
    one. -/
def separator (first : Bool) (spaces : List Char) : List Char :=
  if first then spaces else ',' :: spaces

/-- A key is found behind what parts it from the key before. -/
private theorem takes_hasKey (first : Bool) (hspaces : IsSpaces spaces) (rest : List Char) :
    Takes (hasKey first) (separator first spaces) ('"' :: rest) true := by
  cases first with
  | true => exact takes_hasKey_first hspaces rest
  | false => exact takes_hasKey_next hspaces rest

/-- The end of an object is looked for, and not taken. -/
theorem takes_objectFields_nil {size keys : Nat} {fields : List (RecordField ρ)} {first : Bool}
    (r : ρ) (hspaces : IsSpaces spaces) (rest : List Char) :
    Takes (objectFields size fields first r (keys + 1)) spaces ('}' :: rest) r := by
  refine (takes_hasKey_end first hspaces rest).bind_last ?_
  exact takes_pure r _

/-- A field with its key, which is known and has not been read before, and what follows it. -/
theorem takes_objectFields_cons {size keys : Nat} {fields : List (RecordField ρ)} {first : Bool}
    {r r' r'' : ρ} {key : String} {field : RecordField ρ} {value text : List Char}
    (hspaces : IsSpaces spaces) (hfield : fields.find? (fun f => f.name = key) = some field)
    (hset : field.isSet r = false) (hvalue : Takes (field.read r) value (text ++ rest) r')
    (htext : Takes (objectFields size fields false r' keys) text rest r'') :
    Takes (objectFields size fields first r (keys + 1))
      (separator first spaces ++ (quote key ++ (':' :: (value ++ text)))) rest r'' := by
  refine (takes_hasKey first hspaces _).bind ?_
  refine (takes_advance '"' _).bind_cons ?_
  refine (takes_stringBody key _).bind ?_
  -- the key is found among the fields, and no field is set twice
  simp only [hfield, hset, Bool.false_eq_true, if_false]
  refine (takes_colon _).bind_cons ?_
  exact hvalue.bind htext

/-- A record that is written as an object. -/
theorem takes_record {size : Nat} {format : RecordFormat ρ α} {r : ρ} {a : α} {text : List Char}
    (hfields : Takes (objectFields size format.fields true format.start (size + 1)) text
      ('}' :: rest) r) (hrecord : format.ofObject r = .ok a) :
    Takes (record size format) ('{' :: (text ++ ['}'])) rest a := by
  refine (takes_peekValue (List.forall_mem_nil _) rfl _).bind_nil ?_
  refine (takes_advance '{' _).bind_cons ?_
  refine hfields.bind ?_
  simp only [hrecord]
  exact (takes_advance '}' rest).bind_cons (takes_pure a rest)

/-! ## Lists -/

/-- An element is found behind what parts it from the element before. -/
private theorem takes_hasElement (first : Bool) (hspaces : IsSpaces spaces) (hc : isSpace c = false)
    (hend : c ≠ ']') (rest : List Char) :
    Takes (hasElement first) (separator first spaces) (c :: rest) true := by
  cases first with
  | true =>
    refine (takes_peekToken_cons hspaces hc rest).bind_last ?_
    simp only [hend, if_false]
    exact takes_pure true _
  | false =>
    refine (takes_peekToken_cons (List.forall_mem_nil _) rfl _).bind_nil ?_
    refine (takes_advance ',' _).bind_cons ?_
    refine (takes_peekToken_cons hspaces hc rest).bind_last ?_
    simp only [hend, if_false]
    exact takes_pure true _

/-- Where the bracket stands, no element is found. -/
private theorem takes_hasElement_end (first : Bool) (hspaces : IsSpaces spaces) (rest : List Char) :
    Takes (hasElement first) spaces (']' :: rest) false := by
  refine (takes_peekToken_cons hspaces rfl rest).bind_last ?_
  exact takes_pure false _

/-- The bracket that ends a list. -/
private theorem takes_endList (rest : List Char) : Takes endList [']'] rest () := by
  refine (takes_peekToken_cons (List.forall_mem_nil _) rfl rest).bind_nil ?_
  exact takes_advance ']' rest

/-- The elements of a list as they are written, each with the same white space in front. -/
def elementsText (write : α → List Char) (spaces : List Char) (first : Bool) : List α → List Char
  | [] => []
  | a :: as => separator first spaces ++ (write a ++ elementsText write spaces false as)

variable {write : α → List Char} {element : Reader α} {spaces' : List Char}

/-- A list is as long as its elements at least. -/
theorem le_length_elementsText {n : Nat} (hwrite : ∀ a, n ≤ (write a).length)
    (spaces : List Char) (first : Bool) (as : List α) :
    as.length * n ≤ (elementsText write spaces first as).length := by
  induction as generalizing first with
  | nil => simp
  | cons a as ih =>
    have ha := hwrite a
    have has := ih false
    rw [List.length_cons, Nat.succ_mul, elementsText, List.length_append, List.length_append]
    omega

/-- The elements of a list, and the white space behind the last one. -/
theorem takes_listElements (hspaces : IsSpaces spaces) (hspaces' : IsSpaces spaces')
    (hfront : ∀ a, ∃ c text, write a = c :: text ∧ isSpace c = false ∧ c ≠ ']')
    {as : List α} (helement : ∀ a ∈ as, ∀ rest, Takes element (write a) rest a) (first : Bool)
    {elements : Nat} (helements : as.length < elements) (rest : List Char) :
    Takes (listElements element first elements)
      (elementsText write spaces first as ++ spaces') (']' :: rest) as := by
  -- over the elements, with the first one told apart by the comma that it lacks
  induction as generalizing first elements with
  | nil =>
    obtain ⟨elements, rfl⟩ := Nat.exists_eq_succ_of_ne_zero (Nat.ne_of_gt helements)
    refine (takes_hasElement_end first hspaces' rest).bind_last ?_
    exact takes_pure [] _
  | cons a as ih =>
    -- the reader counts down as elements are found, and there are enough left for the rest
    obtain ⟨elements, rfl⟩ := Nat.exists_eq_succ_of_ne_zero (Nat.ne_zero_of_lt helements)
    obtain ⟨c, text, hwrite, hc, hend⟩ := hfront a
    -- the front of an element is neither white space nor the closing bracket
    have hmore := takes_hasElement first hspaces hc hend
      (text ++ (elementsText write spaces false as ++ spaces' ++ ']' :: rest))
    have hrest := ih (fun b hb => helement b (List.mem_cons_of_mem a hb)) false
      (Nat.lt_of_succ_lt_succ helements)
    rw [elementsText, List.append_assoc, List.append_assoc]
    refine Takes.bind (a := true) ?_ ?_
    · rw [hwrite]
      simpa using hmore
    · refine (helement a List.mem_cons_self _).bind ?_
      refine hrest.bind_last ?_
      exact takes_pure (a :: as) _

/-- A list that is written between brackets. -/
theorem takes_list {size : Nat} (hspaces : IsSpaces spaces) (hspaces' : IsSpaces spaces')
    (hfront : ∀ a, ∃ c text, write a = c :: text ∧ isSpace c = false ∧ c ≠ ']')
    {as : List α} (helement : ∀ a ∈ as, ∀ rest, Takes element (write a) rest a)
    (hsize : as.length ≤ size) (rest : List Char) :
    Takes (list size element) ('[' :: (elementsText write spaces true as ++ spaces' ++ [']'])) rest
      as := by
  refine (takes_peekValue (List.forall_mem_nil _) rfl _).bind_nil ?_
  refine (takes_advance '[' _).bind_cons ?_
  refine (takes_listElements hspaces hspaces' hfront helement true
    (Nat.lt_succ_of_le hsize) rest).bind ?_
  refine (takes_endList rest).bind_cons ?_
  exact takes_pure as rest

/-- A reader that takes the whole text. -/
theorem run_eq_ok {r : Nat → Reader α} {a : α} {text : String}
    (h : Takes (r text.length) text.toList [] a) : run r text = .ok a := by
  have hread : ∀ whole : Reader α, Takes whole text.toList [] a →
      whole (.ofText text) = .ok (a, ⟨[], Position.start.afterAll text.toList⟩) := by
    intro whole hwhole
    rw [Cursor.ofText, ← hwhole, List.append_nil]
  -- nothing but white space may follow the value, and here nothing does
  have hend : Takes peekToken [] [] none :=
    takes_peekToken (List.forall_mem_nil _) fun _ h => by cases h
  unfold run
  extract_lets whole
  have hwhole : Takes whole text.toList [] a := by
    refine h.bind_last ?_
    refine hend.bind_last ?_
    exact takes_pure a []
  rw [hread whole hwhole]

end IconCompiler.Json.Reader
