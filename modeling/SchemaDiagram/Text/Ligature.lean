import SchemaDiagram.Text.Mark

/-! # Letters that join

In some scripts a letter runs together with the letter in front of it into one glyph, which is
narrower than the two of them. Some pairs join by themselves, others only with a joiner in between.
-/
namespace SchemaDiagram
namespace Text

/-- Forms of the Arabic letter alef. -/
def alefRanges : List CodeRange :=
  [(0x622, 0x623), (0x625, 0x625), (0x627, 0x627), (0x671, 0x673), (0x675, 0x675), (0x773, 0x774),
   (0x870, 0x882)]

/-- Forms of the Arabic letter lam. -/
def lamRanges : List CodeRange :=
  [(0x644, 0x644), (0x6B5, 0x6B8), (0x76A, 0x76A), (0x8A6, 0x8A6), (0x8C7, 0x8C7)]

/-- Khmer letters that are written below the letter in front of them. -/
def subscriptRanges : List CodeRange :=
  [(0x1780, 0x1782), (0x1784, 0x1787), (0x1789, 0x178C), (0x178E, 0x1793), (0x1795, 0x1798),
   (0x179B, 0x179D), (0x17A0, 0x17A0), (0x17A2, 0x17A2), (0x17A7, 0x17A7), (0x17AB, 0x17AC),
   (0x17AF, 0x17AF)]

/-- Tifinagh consonants. -/
def tifinaghRanges : List CodeRange := [(0x2D31, 0x2D65), (0x2D6F, 0x2D6F)]

/-- The start of a glyph that a letter in front of it may join. -/
inductive JoiningLetter
  /-- An Arabic alef, with or without marks in front of it. -/
  | alef
  /-- A Hebrew lamed. -/
  | lamed
  /-- A Buginese ya. -/
  | ya
  /-- A Buginese ya with a vowel sign joined to it. -/
  | vowelYa
  /-- A Khmer letter that is written below another one when a coeng stands between them. -/
  | subscript
  /-- A Tifinagh consonant. -/
  | tifinagh
  /-- A Tifinagh consonant with the consonant joiner in front of it. -/
  | joinedTifinagh
  /-- The second part of a Lisu tone. -/
  | lisuTone
  /-- An Old Turkic i. -/
  | orkhonI
  deriving DecidableEq, Repr

namespace JoiningLetter

/-- The start of a glyph that a letter by itself is. -/
def ofChar? (c : Char) : Option JoiningLetter :=
  if CodeRange.anyHolds alefRanges c then some .alef
  else if c.toNat = 0x5DC then some .lamed
  else if c.toNat = 0x1A10 then some .ya
  else if CodeRange.anyHolds subscriptRanges c then some .subscript
  else if CodeRange.anyHolds tifinaghRanges c then some .tifinagh
  else if c.toNat = 0xA4FC || c.toNat = 0xA4FD then some .lisuTone
  else if c.toNat = 0x10C03 then some .orkhonI
  else none

/-- The cells that `c` adds in front of the letter when it joins it, and the glyph that then may be
joined further. With `joined` a joiner stands in between. -/
def join? (letter : JoiningLetter) (joined : Bool) (c : Char) : Option (Int × Option JoiningLetter) :=
  match letter with
  | .alef =>
    if CodeRange.anyHolds lamRanges c then some (0, none)
    else if isArabicMark c then some (0, some .alef)
    else none
  | .lamed => if joined && c.toNat = 0x5D0 then some (0, none) else none
  | .ya => if joined && c.toNat = 0x1A17 then some (0, some .vowelYa) else none
  | .vowelYa => if c.toNat = 0x1A15 then some (0, none) else none
  | .subscript => if c.toNat = 0x17D2 then some (-1, none) else none
  | .tifinagh =>
    if c.toNat = 0x2D7F then some (1, some .joinedTifinagh)
    else if joined && CodeRange.anyHolds tifinaghRanges c then some (0, none)
    else none
  | .joinedTifinagh => if CodeRange.anyHolds tifinaghRanges c then some (-1, none) else none
  | .lisuTone => if 0xA4F8 ≤ c.toNat && c.toNat ≤ 0xA4FB then some (0, none) else none
  | .orkhonI => if joined && c.toNat = 0x10C32 then some (0, none) else none

end JoiningLetter
end Text
end SchemaDiagram
