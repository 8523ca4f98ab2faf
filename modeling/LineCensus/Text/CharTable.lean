/-
# Tables of characters

A property of characters is given by the intervals of code points that have it.
-/

namespace LineCensus.Text

/-- Closed intervals of code points. -/
abbrev CharTable := List (Nat × Nat)

/-- Whether some interval of the table holds the character. -/
def CharTable.covers (table : CharTable) (c : Char) : Bool :=
  table.any fun interval => interval.1 ≤ c.toNat && c.toNat ≤ interval.2

end LineCensus.Text
