/-!
# Tables of code point ranges

A property of characters is stored as the list of its ranges in ascending order. A code point has
the property if one of the ranges holds it.
-/

namespace AdditiveSchema.Text

/-- Some range of the table holds `n`. The ranges are inclusive at both ends. -/
def inRanges (table : List (Nat × Nat)) (n : Nat) : Bool :=
  table.any fun range => range.1 ≤ n && n ≤ range.2

end AdditiveSchema.Text
