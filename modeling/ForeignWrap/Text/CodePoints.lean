/-!
# Tables of code points

A property of characters is kept as a list of closed ranges of code points, in increasing order.
The modules beside this one hold the tables themselves, each without the ASCII range, which every
property decides by hand.

## Main definitions

* `ForeignWrap.Text.inRanges`: whether a character lies in one of the ranges.
-/

namespace ForeignWrap.Text

/-- Whether the code point of `c` lies in one of the closed ranges of `table`. -/
def inRanges (table : List (Nat × Nat)) (c : Char) : Bool :=
  table.any fun range => range.1 ≤ c.toNat && c.toNat ≤ range.2

/-- A character is in a table exactly when one of its ranges holds the code point. -/
theorem inRanges_iff {table : List (Nat × Nat)} {c : Char} :
    inRanges table c = true ↔ ∃ range ∈ table, range.1 ≤ c.toNat ∧ c.toNat ≤ range.2 := by
  simp [inRanges]

end ForeignWrap.Text
