import SchemaDiagram.Options.Json

/-! # Values of numbers

A number's digits are read as one integer of 64 bits, which is then multiplied or divided by a power
of ten. Digits in front of the point that do not fit count as zeros, those behind it are left out.
-/
namespace SchemaDiagram
namespace Numeral

def digitValue (c : Char) : Nat := c.toNat - 48

def maxInteger : Nat := Nat.pow 2 64 - 1

/-- Appends digits to an integer as long as it stays in range, and counts those that are left. -/
def appendDigits (value : Nat) : Text → Nat × Nat
  | [] => (value, 0)
  | c :: rest =>
    if value * 10 + digitValue c ≤ maxInteger then appendDigits (value * 10 + digitValue c) rest
    else (value, rest.length + 1)

def wholeValue (digits : Text) : Nat := digits.foldl (fun value c => value * 10 + digitValue c) 0

/-- The integer of the digits, and the power of ten that it counts. -/
def parts (n : Numeral) : Nat × Int :=
  let (value, left) := appendDigits 0 n.whole
  let fraction := n.fraction.getD []
  let (value, dropped) := appendDigits value fraction
  let exponent : Int := match n.exponent with
    | some (negative, digits) => if negative then -(wholeValue digits : Int) else wholeValue digits
    | none => 0
  (value, exponent + left - (fraction.length - dropped : Nat))

def powerOfTen (n : Nat) : Float := Float.ofScientific 1 false n

/-- The largest power of ten that a double holds. -/
def largestPower : Nat := 308

/-- A number divided by a power of ten, in several steps if the power is too large for one. -/
def scaleDown (x : Float) (n : Nat) : Float :=
  if n ≤ largestPower then x / powerOfTen n
  else if x == 0 then x
  else scaleDown (x / powerOfTen largestPower) (n - largestPower)
termination_by n
decreasing_by simp only [largestPower] at *; omega

/-- A number multiplied by a power of ten, if the product is finite. -/
def scaleUp? (x : Float) (n : Nat) : Option Float :=
  if n ≤ largestPower then
    let product := x * powerOfTen n
    if product.isInf then none else some product
  else if x == 0 then some x
  else none

/-- The nearest double in two roundings, if there is a finite one. -/
def toFloat? (n : Numeral) : Option Float := do
  let (value, exponent) := n.parts
  let x := Float.ofNat value
  let magnitude ← match exponent with
    | .ofNat e => scaleUp? x e
    | .negSucc e => some (scaleDown x (e + 1))
  return if n.negative then -magnitude else magnitude

/-- The value of a number without sign, point and exponent, if it fits 64 bits. -/
def toNat? (n : Numeral) : Option Nat :=
  if n.negative || n.fraction.isSome || n.exponent.isSome then none
  else
    let value := wholeValue n.whole
    if value ≤ maxInteger then some value else none

end Numeral
end SchemaDiagram
