import SchemaDiagram.Decimal.Binary64

/-! # Shortest digits

The fewest decimal digits that read back as a given double, and of those the nearest to it. All
arithmetic is exact.
-/
namespace SchemaDiagram

/-- The number `digits * 10 ^ exponent`. -/
structure Decimal where
  digits : Nat
  exponent : Int
  deriving DecidableEq, Repr

/-- Which neighbour a value half way between two decimals goes to. -/
inductive TieRule
  | even
  | up
  deriving DecidableEq, Repr

/-- A fraction of natural numbers. -/
structure Ratio where
  num : Nat
  den : Nat

namespace Ratio

/-- `n * b ^ e`. -/
def ofPower (n b : Nat) (e : Int) : Ratio := ⟨n * Nat.pow b e.toNat, Nat.pow b (-e).toNat⟩

/-- The fraction in units of `10 ^ e`. -/
def inUnits (r : Ratio) (e : Int) : Ratio := ⟨r.num * Nat.pow 10 (-e).toNat, r.den * Nat.pow 10 e.toNat⟩

/-- `10 ^ e` is at most the fraction. -/
def reaches (r : Ratio) (e : Int) : Bool :=
  let unit := r.inUnits e
  unit.den ≤ unit.num

/-- The exponent of the leading decimal digit of a positive fraction. The logarithm is right up to
one, which the comparisons set right. -/
def leading (r : Ratio) : Int :=
  let guess := ((r.num.log2 : Int) - r.den.log2) * 30103 / 100000
  if r.reaches (guess + 1) then guess + 1 else if r.reaches guess then guess else guess - 1

end Ratio

/-- The numbers that round to a double are those from `low` to `high`, in quarters of the double's
last binary place; the double itself is `value` of them. The ends belong to them if `closed`. -/
structure RoundingInterval where
  low : Nat
  value : Nat
  high : Nat
  closed : Bool
  /-- A quarter of the last place is `2 ^ exponent`. -/
  exponent : Int

namespace RoundingInterval

/-- Below a power of two the doubles lie twice as close. An even mantissa wins ties. -/
def ofBinary (mantissa : Nat) (exponent : Int) : RoundingInterval where
  low := 4 * mantissa - if mantissa = Nat.pow 2 52 ∧ exponent ≠ -1074 then 1 else 2
  value := 4 * mantissa
  high := 4 * mantissa + 2
  closed := mantissa % 2 = 0
  exponent := exponent - 2

/-- Whether `n` units of `10 ^ e` lie in the interval. -/
def holds (i : RoundingInterval) (n : Nat) (e : Int) : Bool :=
  let low := (Ratio.ofPower i.low 2 i.exponent).inUnits e
  let high := (Ratio.ofPower i.high 2 i.exponent).inUnits e
  if i.closed then low.num ≤ n * low.den && n * high.den ≤ high.num
  else low.num < n * low.den && n * high.den < high.num

/-- The multiple of `10 ^ e` that lies in the interval next to the value. -/
def nearest? (i : RoundingInterval) (tie : TieRule) (e : Int) : Option Decimal :=
  let value := (Ratio.ofPower i.value 2 i.exponent).inUnits e
  let below := value.num / value.den
  let rest := 2 * (value.num % value.den)
  let preferAbove := value.den < rest || value.den == rest && (tie = .up || below % 2 == 1)
  match i.holds below e, i.holds (below + 1) e with
  | true, true => some ⟨if preferAbove then below + 1 else below, e⟩
  | true, false => some ⟨below, e⟩
  | false, true => some ⟨below + 1, e⟩
  | false, false => none

/-- The first hit on the grids of `10 ^ e`, `10 ^ (e - 1)` and so on. -/
def firstHit (i : RoundingInterval) (tie : TieRule) : Nat → Int → Option Decimal
  | 0, _ => none
  | n + 1, e => (i.nearest? tie e).or (firstHit i tie n (e - 1))

end RoundingInterval

/-- The shortest decimal of a positive magnitude; seventeen digits always suffice. -/
def Decimal.shortest (tie : TieRule) (mantissa : Nat) (exponent : Int) : Decimal :=
  let leading := (Ratio.ofPower mantissa 2 exponent).leading
  ((RoundingInterval.ofBinary mantissa exponent).firstHit tie 17 leading).getD ⟨0, 0⟩

end SchemaDiagram
