import IconCompiler.Proofs.OrderedMap
import IconCompiler.Style

/-!
# Declarations one after another

A style text is cut where the scan stands outside quotes and parentheses and behind no backslash.
Where it stands so at the end of a text, a semicolon starts it anew: what follows is cut as if it
stood alone, and its declarations are inserted behind those in front.

## Key results

- `splitFrom_append`: a text behind a semicolon that cuts is cut on its own
- `read_append_semicolon`: the style of two texts with a semicolon between them
-/

namespace IconCompiler.Style

open Scanner

/-- A text has a piece at least, if only an empty one. -/
theorem splitFrom_ne_nil (s : Scanner) (cs : List Char) : splitFrom s cs ≠ [] := by
  cases cs with
  | nil => exact List.cons_ne_nil _ _
  | cons c cs =>
    rw [splitFrom]
    split
    · exact List.cons_ne_nil _ _
    · split <;> exact List.cons_ne_nil _ _

/-- A text behind a semicolon that cuts is cut on its own. -/
theorem splitFrom_append {s : Scanner} {a : List Char} (h : s.run a = .initial) (b : List Char) :
    splitFrom s (a ++ ';' :: b) = splitFrom s a ++ splitFrom .initial b := by
  -- over the text in front, from every state of the scan
  induction a generalizing s with
  | nil =>
    -- the scan stands at its start, where a semicolon cuts and leaves it
    obtain rfl : s = .initial := h
    rfl
  | cons c a ih =>
    have hrest := ih (s := s.step c) h
    rw [List.cons_append, splitFrom, splitFrom, hrest]
    split
    · rfl
    · -- the character goes to the first piece, which is in front of the semicolon
      obtain ⟨piece, pieces, hpieces⟩ := List.exists_cons_of_ne_nil (splitFrom_ne_nil (s.step c) a)
      rw [hpieces]
      rfl

/-- The declarations of two texts with a semicolon between them follow each other. -/
private theorem declaredEntries_append {a : List Char} (h : Scanner.initial.run a = .initial)
    (b : List Char) :
    declaredEntries (a ++ ';' :: b) = declaredEntries a ++ declaredEntries b := by
  rw [declaredEntries, splitDeclarations, splitFrom_append h, List.filterMap_append]
  rfl

/-- The style of two texts with a semicolon between them, if the scan of the first one ends outside
    quotes and parentheses and behind no backslash: the declarations of the second style are
    inserted into the first one after another. Keys of the first style keep their positions, and
    where both have a key, the value of the second style counts. -/
theorem read_append_semicolon {a : String} (h : Scanner.initial.run a.toList = .initial)
    (b : String) :
    read (a ++ ";" ++ b) = (read a).insertAll (read b).entries ∧
      (read (a ++ ";" ++ b)).keys = (read a).keys ++ (read b).keys.filter (· ∉ (read a).keys) ∧
        ∀ key, (read (a ++ ";" ++ b)).get? key = ((read b).get? key).or ((read a).get? key) := by
  have htext : (a ++ ";" ++ b).toList = a.toList ++ ';' :: b.toList := by
    rw [String.toList_append, String.toList_append, List.append_assoc]
    rfl
  -- the entries of both texts are inserted one after another
  have hread : read (a ++ ";" ++ b) = (read a).insertAll (declaredEntries b.toList) := by
    rw [read, htext, declaredEntries_append h, OrderedMap.ofList, OrderedMap.insertAll,
      List.foldl_append]
    rfl
  refine ⟨?_, ?_, fun key => ?_⟩
  · rw [hread]
    exact (OrderedMap.insertAll_entries_ofList _ _).symm
  · rw [hread]
    exact OrderedMap.keys_insertAll _ _
  · rw [hread]
    exact OrderedMap.get?_insertAll _ _ key

/-- A style text with semicolons in parentheses and behind a backslash in a string. -/
def nestedStyle : String :=
  "fill:url(a;b);font-family:'x\\';y';stroke-width:2"

/-- A later style replaces a value of an earlier one in its place, and adds its other keys at the
    end. -/
theorem read_append_semicolon_nestedStyle :
    Scanner.initial.run nestedStyle.toList = .initial ∧
      (read (nestedStyle ++ ";" ++ "opacity:.5;fill:red")).entries =
        [("fill", .text "red"), ("fontFamily", .text "'x\\';y'"), ("strokeWidth", .number "2"),
          ("opacity", .number ".5")] := by
  have hclosed : Scanner.initial.run nestedStyle.toList = .initial := by decide +kernel
  refine ⟨hclosed, ?_⟩
  rw [(read_append_semicolon hclosed _).1]
  decide +kernel

end IconCompiler.Style
