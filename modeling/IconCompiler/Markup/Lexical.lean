/-!
# Cutting texts

Small scanners over lists of characters. Each gives back what it takes off the front and the rest;
the rest is never longer than the input, which is why the readers built on them come to an end.
-/

namespace IconCompiler.Markup

/-- Whether a character is white space of markup: space, tab, carriage return or line feed. -/
def isMarkupSpace (c : Char) : Bool :=
  c = ' ' || c = '\t' || c = '\r' || c = '\n'

/-- How many bytes a text takes. -/
def byteLength (cs : List Char) : Nat :=
  cs.foldr (fun c n => c.utf8Size + n) 0

/-- A text without the markup space at its end. -/
def trimMarkupEnd (cs : List Char) : List Char :=
  (cs.reverse.dropWhile isMarkupSpace).reverse

/-- The texts before and after the first occurrence of a mark. -/
def cutAt (mark : List Char) : List Char → Option (List Char × List Char)
  | [] => none
  | c :: cs =>
    if mark.isPrefixOf (c :: cs) then some ([], (c :: cs).drop mark.length)
    else (cutAt mark cs).map fun p => (c :: p.1, p.2)

/-- The texts before and after the first closing angle bracket outside quotes, for a scan inside the
    quote `open?`. -/
def cutTag : (open? : Option Char) → List Char → Option (List Char × List Char)
  | _, [] => none
  | none, c :: cs =>
    if c = '>' then some ([], cs)
    else
      (cutTag (if c = '"' || c = '\'' then some c else none) cs).map fun p => (c :: p.1, p.2)
  | some q, c :: cs =>
    (cutTag (if c = q then none else some q) cs).map fun p => (c :: p.1, p.2)

/-- The texts before and after the closing angle bracket that matches an opening one `depth` levels
    further out. -/
def cutBalanced : (depth : Nat) → List Char → Option (List Char × List Char)
  | _, [] => none
  | depth, c :: cs =>
    if c = '>' then
      match depth with
      | 0 => some ([], cs)
      | d + 1 => (cutBalanced d cs).map fun p => (c :: p.1, p.2)
    else (cutBalanced (if c = '<' then depth + 1 else depth) cs).map fun p => (c :: p.1, p.2)

/-- What follows a mark is no longer than the text it is found in. -/
theorem cutAt_length {mark cs a b : List Char} (h : cutAt mark cs = some (a, b)) :
    b.length ≤ cs.length := by
  induction cs generalizing a with
  | nil => simp [cutAt] at h
  | cons c cs ih =>
    simp only [cutAt] at h
    split at h
    · cases h
      simp only [List.length_drop]
      omega
    · obtain ⟨⟨a', b'⟩, hab, heq⟩ := Option.map_eq_some_iff.1 h
      cases heq
      exact Nat.le_succ_of_le (ih hab)

/-- What follows a tag is shorter than the text it is found in:
    its last bracket is left out. -/
theorem cutTag_length {open? : Option Char} {cs a b : List Char}
    (h : cutTag open? cs = some (a, b)) : b.length < cs.length := by
  induction cs generalizing a open? with
  | nil => cases open? <;> simp [cutTag] at h
  | cons c cs ih =>
    cases open? with
    | none =>
      simp only [cutTag] at h
      split at h
      · cases h
        simp
      · obtain ⟨⟨a', b'⟩, hab, heq⟩ := Option.map_eq_some_iff.1 h
        cases heq
        exact Nat.lt_succ_of_lt (ih hab)
    | some q =>
      simp only [cutTag] at h
      obtain ⟨⟨a', b'⟩, hab, heq⟩ := Option.map_eq_some_iff.1 h
      cases heq
      exact Nat.lt_succ_of_lt (ih hab)

/-- What follows balanced brackets is shorter than the text they are found in. -/
theorem cutBalanced_length {depth : Nat} {cs a b : List Char}
    (h : cutBalanced depth cs = some (a, b)) : b.length < cs.length := by
  induction cs generalizing a depth with
  | nil => simp [cutBalanced] at h
  | cons c cs ih =>
    simp only [cutBalanced] at h
    split at h
    · cases depth with
      | zero =>
        cases h
        simp
      | succ d =>
        obtain ⟨⟨a', b'⟩, hab, heq⟩ := Option.map_eq_some_iff.1 h
        cases heq
        exact Nat.lt_succ_of_lt (ih hab)
    · obtain ⟨⟨a', b'⟩, hab, heq⟩ := Option.map_eq_some_iff.1 h
      cases heq
      exact Nat.lt_succ_of_lt (ih hab)

theorem dropWhile_length (p : Char → Bool) (cs : List Char) :
    (cs.dropWhile p).length ≤ cs.length :=
  (List.dropWhile_sublist p).length_le

/-- What is left behind the first kept character is shorter than the text. -/
theorem length_of_dropWhile_eq_cons {p : Char → Bool} {cs rest : List Char} {c : Char}
    (h : cs.dropWhile p = c :: rest) : rest.length < cs.length := by
  have h' := dropWhile_length p cs
  rw [h] at h'
  exact h'

end IconCompiler.Markup
