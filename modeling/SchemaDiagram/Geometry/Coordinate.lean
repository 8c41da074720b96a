/-! # Coordinates

Geometry is written once for every type of number with the operations below. A diagram is computed
with doubles; the same definitions may be read with exact numbers.
-/
namespace SchemaDiagram

/-- Numbers that places and lengths are measured in. -/
class Coordinate (α : Type) where
  ofNat : Nat → α
  add : α → α → α
  sub : α → α → α
  mul : α → α → α
  div : α → α → α
  neg : α → α
  sqrt : α → α
  lt : α → α → Prop
  le : α → α → Prop
  decidableLt : ∀ a b, Decidable (lt a b)
  decidableLe : ∀ a b, Decidable (le a b)
  isFinite : α → Bool

namespace Coordinate

instance : Coordinate Float where
  ofNat := Float.ofNat
  add a b := a + b
  sub a b := a - b
  mul a b := a * b
  div a b := a / b
  neg a := -a
  sqrt := Float.sqrt
  lt a b := a < b
  le a b := a ≤ b
  decidableLt _ _ := inferInstance
  decidableLe _ _ := inferInstance
  isFinite := Float.isFinite

variable {α : Type} [Coordinate α]

/-! The signs of arithmetic. Types with signs of their own keep them. -/

instance (priority := low) instOfNat (n : Nat) : OfNat α n := ⟨ofNat n⟩

instance (priority := low) instAdd : Add α := ⟨add⟩

instance (priority := low) instSub : Sub α := ⟨sub⟩

instance (priority := low) instMul : Mul α := ⟨mul⟩

instance (priority := low) instDiv : Div α := ⟨div⟩

instance (priority := low) instNeg : Neg α := ⟨neg⟩

instance (priority := low) instLT : LT α := ⟨lt⟩

instance (priority := low) instLE : LE α := ⟨le⟩

instance (priority := low) instDecidableLT : DecidableLT α := decidableLt

instance (priority := low) instDecidableLE : DecidableLE α := decidableLe

end Coordinate

/-- A value is to be kept between two bounds of which the lower one is not at most the upper one. -/
inductive EmptyRange
  | emptyRange
  deriving DecidableEq, Repr

namespace Coordinate

variable {α : Type} [Coordinate α]

/-- The larger of two numbers, and the second of two equal ones. What is no number, and so not at
most itself, gives way. -/
def larger (a b : α) : α := if b < a then a else if b ≤ b then b else a

/-- The smaller of two numbers, and the second of two equal ones. What is no number gives way. -/
def smaller (a b : α) : α := if a < b then a else if b ≤ b then b else a

def magnitude (a : α) : α := if a < 0 then -a else a

/-- The number next to `a` from `low` to `high`. -/
def clamp (a low high : α) : Except EmptyRange α :=
  if low ≤ high then .ok (if a < low then low else if high < a then high else a)
  else .error .emptyRange

/-- The largest of the numbers, at least zero. -/
def largest (as : List α) : α := as.foldl larger 0

/-- One part of `10 ^ n`. -/
def tenth (n : Nat) : α := 1 / Coordinate.ofNat (Nat.pow 10 n)

end Coordinate
end SchemaDiagram
