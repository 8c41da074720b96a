import SchemaDiagram.Text.Basic

/-! # Blanks

A blank is a character with the property White_Space.
-/
namespace SchemaDiagram
namespace Text

def isBlank (c : Char) : Bool :=
  let n := c.toNat
  (9 ≤ n && n ≤ 13) || n == 0x20 || n == 0x85 || n == 0xA0 || n == 0x1680 ||
    (0x2000 ≤ n && n ≤ 0x200A) || n == 0x2028 || n == 0x2029 || n == 0x202F || n == 0x205F || n == 0x3000

def trimStart (t : Text) : Text := t.dropWhile isBlank

/-- Blanks at the end are dropped; one with something after it stays. -/
def trimEnd : Text → Text
  | [] => []
  | c :: rest =>
    match trimEnd rest with
    | [] => if isBlank c then [] else [c]
    | kept => c :: kept

def trim (t : Text) : Text := trimEnd (trimStart t)

/-- The maximal runs without a blank. -/
def words (t : Text) : List Text := (t.splitOnP isBlank).filter (!·.isEmpty)

/-- The words with one space between neighbours. -/
def collapseBlanks (t : Text) : Text := joinWith ' ' (words t)

theorem isBlank_of_isWhitespace {c : Char} (h : c.isWhitespace = true) : isBlank c = true := by
  simp only [Char.isWhitespace, Bool.or_eq_true, decide_eq_true_eq] at h
  rcases h with ((rfl | rfl) | rfl) | rfl <;> decide

end Text
end SchemaDiagram
