import IconCompiler.Glob.Pattern

/-!
# Matching names with patterns

`matchName` decides whether the items of a component match a whole name. Every asterisk may stand
for any part of the name, but no choice is tried twice: `matchEnds` answers for all ends of the name
at once, item by item from the last one. The equations of `matchName` say what each item matches.
-/

namespace IconCompiler.Glob

/-- Whether an item of a class covers a character. -/
def ClassItem.covers (i : ClassItem) (c : Char) : Bool :=
  match i with
  | .single d => c = d
  | .range low high => low ≤ c && c ≤ high

/-- Whether an item that stands for one character matches it. -/
def Token.matchesChar (t : Token) (c : Char) : Bool :=
  match t with
  | .char d => c = d
  | .any => true
  | .oneOf items => items.any (·.covers c)
  | .noneOf items => !items.any (·.covers c)
  | .sequence | .directories => false

/-- For every position in a row of answers, whether the answer there or at a later one is yes. -/
def anyLater : List Bool → List Bool
  | [] => []
  | b :: bs =>
    match anyLater bs with
    | [] => [b]
    | later :: row => (b || later) :: later :: row

/-- For every end of a text, from the whole text to the empty one, whether items match it. Each item
    takes one pass over the row of answers for the items after it, however many asterisks there
    are. -/
def matchEnds : List Token → List Char → List Bool
  | [], cs => cs.map (fun _ => false) ++ [true]
  | .sequence :: ts, cs => anyLater (matchEnds ts cs)
  | t :: ts, cs =>
    List.zipWith (fun c after => t.matchesChar c && after) cs (matchEnds ts cs).tail ++ [false]

/-- Whether items match a name. -/
def matchName (ts : List Token) (cs : List Char) : Bool :=
  (matchEnds ts cs).headD false

/-- Whether some end of a text, itself included, passes a test. -/
def anySuffix (test : List Char → Bool) : List Char → Bool
  | [] => test []
  | c :: cs => test (c :: cs) || anySuffix test cs

private theorem anyLater_cons (b : Bool) (bs : List Bool) :
    anyLater (b :: bs) = (b || (anyLater bs).headD false) :: anyLater bs := by
  rw [anyLater]
  cases anyLater bs <;> simp

/-- Every position of a row keeps an answer. -/
private theorem length_anyLater (bs : List Bool) : (anyLater bs).length = bs.length := by
  induction bs with
  | nil => rfl
  | cons b bs ih => rw [anyLater_cons, List.length_cons, List.length_cons, ih]

/-- A row answers for each end of a text, the whole text and the empty end included. -/
private theorem length_matchEnds (ts : List Token) (cs : List Char) :
    (matchEnds ts cs).length = cs.length + 1 := by
  fun_induction matchEnds ts cs with
  | case1 => simp
  | case2 ts cs ih => rw [length_anyLater, ih]
  | case3 t ts cs h ih => simp [ih]

/-- The first answer of a row is the one for the whole text. -/
private theorem matchEnds_eq_cons_tail (ts : List Token) (cs : List Char) :
    matchEnds ts cs = matchName ts cs :: (matchEnds ts cs).tail := by
  have h := length_matchEnds ts cs
  rw [matchName]
  cases hr : matchEnds ts cs with
  | nil => simp [hr] at h
  | cons b bs => rfl

/-- The equation of `matchEnds` for an item that stands for one character. -/
private theorem matchEnds_cons {t : Token} (h : t ≠ .sequence) (ts : List Token) (cs : List Char) :
    matchEnds (t :: ts) cs =
      List.zipWith (fun c after => t.matchesChar c && after) cs (matchEnds ts cs).tail ++
        [false] := by
  rw [matchEnds]
  exact h

/-- The row of a text goes on with the row of the text without its first character. -/
private theorem tail_matchEnds (ts : List Token) (c : Char) (cs : List Char) :
    (matchEnds ts (c :: cs)).tail = matchEnds ts cs := by
  induction ts with
  | nil => rfl
  | cons t ts ih =>
    by_cases h : t = .sequence
    · subst h
      rw [matchEnds, matchEnds_eq_cons_tail ts (c :: cs), ih, anyLater_cons, List.tail_cons,
        matchEnds]
    · rw [matchEnds_cons h, matchEnds_cons h, ih, matchEnds_eq_cons_tail ts cs]
      rfl

theorem matchName_nil (cs : List Char) : matchName [] cs = cs.isEmpty := by
  cases cs <;> rfl

/-- An asterisk leaves any end of the name to the items after it. -/
theorem matchName_sequence (ts : List Token) (cs : List Char) :
    matchName (.sequence :: ts) cs = anySuffix (matchName ts) cs := by
  -- an asterisk reads the row of the items after it, at this position or at a later one
  have hrow : ∀ cs, matchName (.sequence :: ts) cs =
      (matchName ts cs || (anyLater (matchEnds ts cs).tail).headD false) := fun cs => by
    rw [matchName, matchEnds, matchEnds_eq_cons_tail, anyLater_cons]
    rfl
  induction cs with
  | nil =>
    have h : (matchEnds ts []).tail = [] := by
      rw [← List.length_eq_zero_iff, List.length_tail, length_matchEnds]
      rfl
    rw [hrow, h, anySuffix]
    simp [anyLater]
  | cons c cs ih =>
    rw [hrow, tail_matchEnds, anySuffix, ← ih]
    rfl

theorem matchName_cons_nil {t : Token} (h : t ≠ .sequence) (ts : List Token) :
    matchName (t :: ts) [] = false := by
  rw [matchName, matchEnds_cons h]
  rfl

/-- Any other item takes one character. -/
theorem matchName_cons_cons {t : Token} (h : t ≠ .sequence) (ts : List Token) (c : Char)
    (cs : List Char) : matchName (t :: ts) (c :: cs) = (t.matchesChar c && matchName ts cs) := by
  rw [matchName, matchEnds_cons h, tail_matchEnds, matchEnds_eq_cons_tail ts cs]
  rfl

end IconCompiler.Glob
