/-!
# Tables of code point ranges

A property of characters is given as a list of inclusive ranges of code points.
-/

namespace IconCompiler.Text.RangeTable

/-- Whether a character lies in one of the ranges of a table. -/
def contains (table : List (Nat × Nat)) (c : Char) : Bool :=
  table.any fun r => r.1 ≤ c.toNat && c.toNat ≤ r.2

/-- A character is in a table exactly if one of the ranges covers it. -/
theorem contains_eq_true_iff {table : List (Nat × Nat)} {c : Char} :
    contains table c = true ↔ ∃ r ∈ table, r.1 ≤ c.toNat ∧ c.toNat ≤ r.2 := by
  simp [contains]

end IconCompiler.Text.RangeTable
