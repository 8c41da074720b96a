import SchemaDiagram.Decimal.Shortest
import SchemaDiagram.Text.Basic

/-! # Written numbers

Doubles are written with the fewest digits that read back, in one of two styles.
-/
namespace SchemaDiagram

/-- How a number is written. -/
structure NumberStyle where
  tie : TieRule
  /-- The numbers of digits in front of the point that are written in full; a number with no digit
  there has minus the number of zeros behind the point. All others have an exponent. -/
  positional : Int → Bool
  /-- What a whole number ends in. -/
  wholeEnd : Text
  /-- The texts of numbers that are not finite. -/
  nan : Text
  infinite : Bool → Text

namespace NumberStyle

/-- Numbers in running text: no exponent, and no point in a whole number. -/
def plain : NumberStyle where
  tie := .up
  positional := fun _ => true
  wholeEnd := []
  nan := "NaN".toList
  infinite := fun negative => if negative then "-inf".toList else "inf".toList

/-- Numbers in data: always with a point or an exponent; what is not finite is null. -/
def data : NumberStyle where
  tie := .even
  positional := fun place => -5 < place && place ≤ 16
  wholeEnd := ".0".toList
  nan := "null".toList
  infinite := fun _ => "null".toList

/-- `digits` without zeros at its end, and their number. -/
def stripZeros (digits : Text) : Text × Nat :=
  let kept := (digits.reverse.dropWhile (· == '0')).reverse
  (kept, digits.length - kept.length)

/-- `digits * 10 ^ exponent`, the digits without zeros at either end. -/
def writeDigits (style : NumberStyle) (digits : Text) (exponent : Int) : Text :=
  let place := digits.length + exponent
  if style.positional place then
    if 0 ≤ exponent then digits ++ List.replicate exponent.toNat '0' ++ style.wholeEnd
    else if 0 < place then digits.take place.toNat ++ '.' :: digits.drop place.toNat
    else "0.".toList ++ List.replicate (-place).toNat '0' ++ digits
  else
    let fraction := match digits with
      | first :: second :: rest => first :: '.' :: second :: rest
      | digits => digits
    fraction ++ 'e' :: (toString (place - 1)).toList

def write (style : NumberStyle) (x : Float) : Text :=
  match Binary64.ofFloat x with
  | .nan => style.nan
  | .infinite negative => style.infinite negative
  | .finite negative mantissa exponent =>
    let sign := if negative then ['-'] else []
    if mantissa = 0 then sign ++ '0' :: style.wholeEnd
    else
      let d := Decimal.shortest style.tie mantissa exponent
      let (digits, zeros) := stripZeros (Nat.toDigits 10 d.digits)
      sign ++ style.writeDigits digits (d.exponent + zeros)

end NumberStyle
end SchemaDiagram
