import SchemaDiagram.Text.Basic
import SchemaDiagram.Text.Emoji
import SchemaDiagram.Text.Ligature

/-! # Width in cells

How many cells of a fixed-width font a text fills. Most characters fill one cell, wide East Asian
ones and emoji two, marks and joiners none. What stands behind a character can change that: an emoji
sequence counts as one emoji, letters that join as one glyph, and a selector chooses between two
forms of one character. So a text is measured from its end.
-/
namespace SchemaDiagram
namespace Text

/-- East Asian wide and full-width characters. -/
def wideRanges : List CodeRange :=
  [(0x1100, 0x115F), (0x231A, 0x231B), (0x2329, 0x232A), (0x23E9, 0x23EC), (0x23F0, 0x23F0), (0x23F3, 0x23F3), (0x25FD, 0x25FE),
   (0x2614, 0x2615), (0x2630, 0x2637), (0x2648, 0x2653), (0x267F, 0x267F), (0x268A, 0x268F), (0x2693, 0x2693), (0x26A1, 0x26A1),
   (0x26AA, 0x26AB), (0x26BD, 0x26BE), (0x26C4, 0x26C5), (0x26CE, 0x26CE), (0x26D4, 0x26D4), (0x26EA, 0x26EA), (0x26F2, 0x26F3),
   (0x26F5, 0x26F5), (0x26FA, 0x26FA), (0x26FD, 0x26FD), (0x2705, 0x2705), (0x270A, 0x270B), (0x2728, 0x2728), (0x274C, 0x274C),
   (0x274E, 0x274E), (0x2753, 0x2755), (0x2757, 0x2757), (0x2795, 0x2797), (0x27B0, 0x27B0), (0x27BF, 0x27BF), (0x2B1B, 0x2B1C),
   (0x2B50, 0x2B50), (0x2B55, 0x2B55), (0x2E80, 0x2E99), (0x2E9B, 0x2EF3), (0x2F00, 0x2FD5), (0x2FF0, 0x3029), (0x3030, 0x303E),
   (0x3041, 0x3096), (0x309B, 0x30FF), (0x3105, 0x312F), (0x3131, 0x3163), (0x3165, 0x318E), (0x3190, 0x31E5), (0x31EF, 0x321E),
   (0x3220, 0x3247), (0x3250, 0xA48C), (0xA490, 0xA4C6), (0xA960, 0xA97C), (0xAC00, 0xD7A3), (0xF900, 0xFAFF), (0xFE10, 0xFE19),
   (0xFE30, 0xFE52), (0xFE54, 0xFE66), (0xFE68, 0xFE6B), (0xFF01, 0xFF60), (0xFFE0, 0xFFE6), (0x16FE0, 0x16FE3), (0x16FF2, 0x16FF6),
   (0x17000, 0x18CD6), (0x18CFF, 0x18D1E), (0x18D80, 0x18DF2), (0x18E00, 0x191D2), (0x1AFF0, 0x1AFF3), (0x1AFF5, 0x1AFFB), (0x1AFFD, 0x1AFFE),
   (0x1B000, 0x1B123), (0x1B132, 0x1B132), (0x1B150, 0x1B152), (0x1B155, 0x1B155), (0x1B164, 0x1B168), (0x1B170, 0x1B2FB), (0x1D300, 0x1D356),
   (0x1D360, 0x1D376), (0x1F004, 0x1F004), (0x1F0CF, 0x1F0CF), (0x1F18E, 0x1F18E), (0x1F191, 0x1F19A), (0x1F200, 0x1F202), (0x1F210, 0x1F23B),
   (0x1F240, 0x1F248), (0x1F250, 0x1F251), (0x1F260, 0x1F265), (0x1F300, 0x1F320), (0x1F32D, 0x1F335), (0x1F337, 0x1F37C), (0x1F37E, 0x1F393),
   (0x1F3A0, 0x1F3CA), (0x1F3CF, 0x1F3D3), (0x1F3E0, 0x1F3F0), (0x1F3F4, 0x1F3F4), (0x1F3F8, 0x1F43E), (0x1F440, 0x1F440), (0x1F442, 0x1F4FC),
   (0x1F4FF, 0x1F53D), (0x1F54B, 0x1F54E), (0x1F550, 0x1F567), (0x1F57A, 0x1F57A), (0x1F595, 0x1F596), (0x1F5A4, 0x1F5A4), (0x1F5FB, 0x1F64F),
   (0x1F680, 0x1F6C5), (0x1F6CC, 0x1F6CC), (0x1F6D0, 0x1F6D2), (0x1F6D5, 0x1F6D8), (0x1F6DC, 0x1F6DF), (0x1F6EB, 0x1F6EC), (0x1F6F4, 0x1F6FC),
   (0x1F7E0, 0x1F7EB), (0x1F7F0, 0x1F7F0), (0x1F90C, 0x1F93A), (0x1F93C, 0x1F945), (0x1F947, 0x1F9FF), (0x1FA70, 0x1FA7C), (0x1FA80, 0x1FA8A),
   (0x1FA8E, 0x1FAC6), (0x1FAC8, 0x1FAC8), (0x1FACD, 0x1FADC), (0x1FADF, 0x1FAEA), (0x1FAEF, 0x1FAF8), (0x20000, 0x2FFFD), (0x30000, 0x3FFFD)]

/-- The cells of a character on its own. -/
def charCells (c : Char) : Nat :=
  if c.toNat ≤ 0xA0 then 1
  else if c.toNat = 0x17D8 then 3
  else if c.toNat = 0x17A4 || c.toNat = 0x115F then 2
  else if isMark c then 0
  else if CodeRange.anyHolds wideRanges c then 2
  else 1

/-- Quotation marks that have a wide form. -/
def hasWideForm (c : Char) : Bool :=
  c.toNat = 0x2018 || c.toNat = 0x2019 || c.toNat = 0x201C || c.toNat = 0x201D

/-- What a text begins with, as far as it can change the width of a character in front of it. -/
inductive Opening
  | plain
  | lineFeed
  | picture
  | skinTone
  /-- Regional indicators, one or more of them. -/
  | flags (several : Bool)
  /-- A zero-width joiner with a picture behind it. -/
  | joiner
  /-- A keycap mark with a joiner and a picture behind it. -/
  | keycap
  /-- A regional indicator that a joiner joins to a picture. -/
  | joinedFlag
  /-- Two or more regional indicators that a joiner joins to a picture. -/
  | joinedFlags (even : Bool)
  /-- The end of a tag sequence with so many letters in front of it. -/
  | tagLetters (count : Nat)
  /-- The end of a tag sequence with so many digits in front of it. -/
  | tagDigits (count : Nat)
  | letter (start : JoiningLetter) (joined : Bool)
  /-- A Kirat Rai sign that begins with the vowel e. -/
  | kiratE
  /-- A Kirat Rai sign that begins with the vowel ai. -/
  | kiratAi
  deriving DecidableEq, Repr

namespace Opening

def isLetter : Opening → Bool
  | .letter .. => true
  | _ => false

/-- Whether a picture in front of it is joined on. -/
def joinsPicture : Opening → Bool
  | .joiner | .keycap => true
  | _ => false

def ofLetter : Option JoiningLetter → Opening
  | some start => .letter start false
  | none => .plain

/-- How a text opens with a character that nothing behind it changes. -/
def ofChar (c : Char) : Opening :=
  if isSkinTone c then .skinTone
  else if isPicture c then .picture
  else if isRegionalIndicator c then .flags false
  else if c.toNat = 0x16D67 then .kiratE
  else if c.toNat = 0x16D68 then .kiratAi
  else ofLetter (JoiningLetter.ofChar? c)

/-- The opening behind `c` when `c` only lies between letters that join. -/
def across? (opening : Opening) (c : Char) : Option Opening :=
  match opening with
  | .letter .alef _ => none
  | .letter start joined =>
    if isJoiner c then some (.letter start true)
    else if isInvisibleMark c then some (.letter start joined)
    else none
  | _ => none

/-- The cells that `c` adds in front of the opening, and the opening of both, if they belong
together. -/
def before? (opening : Opening) (c : Char) : Option (Int × Opening) :=
  match opening with
  | .plain | .lineFeed | .keycap => none
  | .picture => if isJoiner c then some (0, .joiner) else none
  | .skinTone =>
    if isJoiner c then some (0, .joiner)
    else if takesSkinTone c then some (0, .picture)
    else none
  | .flags several =>
    if isRegionalIndicator c then some (1, .flags true)
    else if several && isJoiner c then some (0, .joiner)
    else none
  | .joiner =>
    if isKeycap c then some (0, .keycap)
    else if isRegionalIndicator c then some (1, .joinedFlag)
    else if isSkinTone c then some (0, .skinTone)
    else if isTagEnd c then some (0, .tagLetters 0)
    else if isPicture c then some (0, .picture)
    else none
  | .joinedFlag => if isRegionalIndicator c then some (-1, .joinedFlags true) else none
  | .joinedFlags even =>
    if isRegionalIndicator c then some (if even then (3, .joinedFlags false) else (-1, .joinedFlags true))
    else if isJoiner c then some (0, .joiner)
    else none
  | .tagLetters count =>
    if isTagLetter c && count < 6 then some (0, .tagLetters (count + 1))
    else if isTagDigit c && count < 5 then some (0, .tagDigits 1)
    else if isTaggedFlag c && 3 ≤ count then some (0, .picture)
    else none
  | .tagDigits count =>
    if isTagDigit c && count < 3 then some (0, .tagDigits (count + 1))
    else if isTaggedFlag c && count = 3 then some (0, .picture)
    else none
  | .letter start joined => (start.join? joined c).map fun (cells, next) => (cells, ofLetter next)
  | .kiratE =>
    if c.toNat = 0x16D63 || c.toNat = 0x16D69 then some (0, .plain)
    else if c.toNat = 0x16D67 then some (0, .kiratAi)
    else if c.toNat = 0x16D68 then some (1, .kiratE)
    else none
  | .kiratAi => if c.toNat = 0x16D63 then some (0, .plain) else none

end Opening

/-- What stands behind a character: how the text there opens, and which selectors come before that. -/
structure CellContext where
  opening : Opening
  emojiForm : Bool
  textForm : Bool
  wideForm : Bool

namespace CellContext

/-- An opening with no selector in front of it. -/
def bare (opening : Opening) : CellContext := ⟨opening, false, false, false⟩

/-- The context in front of the selector `c`. A letter may still join what stands in front of it. -/
def select? (next : CellContext) (c : Char) : Option CellContext :=
  let kept := if next.opening.isLetter then next else bare .plain
  if c.toNat = 0xFE0F then
    some { (if next.opening.joinsPicture then next else kept) with emojiForm := true }
  else if c.toNat = 0xFE0E then some { kept with textForm := true }
  else if c.toNat = 0xFE01 then some { kept with wideForm := true }
  else none

/-- The context for a character that has no emoji form. -/
def refuseEmojiForm (next : CellContext) : CellContext :=
  if !next.emojiForm then next
  else if next.opening.isLetter then { next with emojiForm := false }
  else bare .plain

/-- The context for a character that does not have the form asked for. -/
def refuseForm (next : CellContext) : CellContext :=
  if next.textForm then { next with textForm := false } else { next with wideForm := false }

/-- The cells of `c` by itself. -/
def alone (c : Char) : Int × CellContext := (charCells c, bare (.ofChar c))

/-- The cells `c` adds when no selector behind it changes its form. -/
def joinBefore (next : CellContext) (c : Char) : Int × CellContext :=
  match next.opening.across? c with
  | some opening => (0, { next with opening })
  | none =>
    if next.wideForm then alone c
    else match next.opening.before? c with
      | some (cells, opening) => (cells, bare opening)
      | none => alone c

/-- The cells `c` adds when it is not in its emoji form. -/
def textBefore (next : CellContext) (c : Char) : Int × CellContext :=
  if c.toNat = 10 then (1, bare .lineFeed)
  else if c.toNat ≤ 0xA0 then (if c.toNat = 13 && next.opening = .lineFeed then 0 else 1, bare .plain)
  else match next.select? c with
    | some selected => (0, selected)
    | none =>
      if next.textForm && hasTextForm c then (1, bare .plain)
      else if !next.textForm && next.wideForm && hasWideForm c then (2, bare .plain)
      else next.refuseForm.joinBefore c

/-- The cells `c` adds in front of `next`, and the context it makes for the character before it. -/
def before (next : CellContext) (c : Char) : Int × CellContext :=
  if next.emojiForm && hasEmojiForm c then (if next.opening.joinsPicture then 0 else 2, bare .picture)
  else next.refuseEmojiForm.textBefore c

end CellContext

/-- The cells of a text, measured from its end, and the context it makes for what stands before it. -/
def measureCells (t : Text) : Int × CellContext :=
  t.foldr (fun c (sum, next) => let (cells, here) := next.before c; (sum + cells, here)) (0, .bare .plain)

def cells (t : Text) : Nat := (measureCells t).1.toNat

end Text
end SchemaDiagram
