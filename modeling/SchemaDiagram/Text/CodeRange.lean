/-! # Ranges of code points

A character property is a list of ranges of code points, both ends included.
-/
namespace SchemaDiagram

/-- The code points from the first number to the second. -/
abbrev CodeRange := Nat × Nat

/-- Whether one of the ranges holds `c`. -/
def CodeRange.anyHolds (ranges : List CodeRange) (c : Char) : Bool :=
  ranges.any fun (first, last) => first ≤ c.toNat && c.toNat ≤ last

end SchemaDiagram
