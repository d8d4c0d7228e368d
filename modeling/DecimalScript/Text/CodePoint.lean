/-!
# Sets of code points

A character class of a standard is kept as a table of closed ranges of code points. The classes
themselves (`Text.isBlank`, `Text.isGraphemeExtend`, `Text.isUnprintable`) each have a module of
their own, named for the property.
-/

namespace DecimalScript.Text

/-- Whether `c` lies in one of the closed ranges of `table`. -/
def inTable (table : List (Nat × Nat)) (c : Char) : Bool :=
  table.any fun range => range.1 ≤ c.toNat && c.toNat ≤ range.2

theorem inTable_eq_true_iff {table : List (Nat × Nat)} {c : Char} :
    inTable table c = true ↔ ∃ range ∈ table, range.1 ≤ c.toNat ∧ c.toNat ≤ range.2 := by
  simp [inTable]

end DecimalScript.Text
