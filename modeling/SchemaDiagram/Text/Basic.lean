/-! # Text

Schema text is a list of characters. Positions inside a text are byte offsets of its UTF-8 form;
lines end at line feeds.
-/
namespace SchemaDiagram

/-- A text, character by character. -/
abbrev Text := List Char

namespace Text

/-- Length of the UTF-8 form. -/
def bytes : Text → Nat
  | [] => 0
  | c :: rest => c.utf8Size + bytes rest

/-- The characters that start before byte `n`. -/
def takeBytes : Nat → Text → Text
  | _, [] => []
  | n, c :: rest => if n = 0 then [] else c :: takeBytes (n - c.utf8Size) rest

/-- The characters that start at byte `n` or later. -/
def dropBytes : Nat → Text → Text
  | _, [] => []
  | n, c :: rest => if n = 0 then c :: rest else dropBytes (n - c.utf8Size) rest

/-- The characters that start in the bytes from `start` up to `stop`. -/
def slice (t : Text) (start stop : Nat) : Text := takeBytes (stop - start) (dropBytes start t)

/-- Byte `n` of `t` is the start of a character or the end of the text. -/
def IsBoundary (t : Text) (n : Nat) : Prop := ∃ before after, t = before ++ after ∧ bytes before = n

/-- The pieces between line feeds; a text without one is a single line. -/
def lines : Text → List Text
  | [] => [[]]
  | c :: rest =>
    if c = '\n' then [] :: lines rest
    else match lines rest with
      | [] => [[c]]
      | line :: more => (c :: line) :: more

/-- The part before the first line feed. -/
def firstLine (t : Text) : Text := t.takeWhile (· ≠ '\n')

/-- Whether `part` stands in `t` as a run of neighbouring characters. -/
def hasPart (part : Text) : Text → Bool
  | [] => part.isEmpty
  | c :: rest => part.isPrefixOf (c :: rest) || hasPart part rest

/-- The parts around the first occurrence of `mark`, if there is one. -/
def splitAtFirst (mark : Char) : Text → Option (Text × Text)
  | [] => none
  | c :: rest =>
    if c = mark then some ([], rest)
    else (splitAtFirst mark rest).map fun (before, after) => (c :: before, after)

/-- The texts one after another with `mark` between neighbours. -/
def joinWith (mark : Char) : List Text → Text
  | [] => []
  | [t] => t
  | t :: more => t ++ mark :: joinWith mark more

/-! ## Sizes -/

@[simp] theorem bytes_nil : bytes [] = 0 := rfl

@[simp] theorem bytes_cons (c : Char) (t : Text) : bytes (c :: t) = c.utf8Size + bytes t := rfl

@[simp] theorem bytes_append (s t : Text) : bytes (s ++ t) = bytes s + bytes t := by
  induction s with
  | nil => simp
  | cons c rest ih => simp [ih, Nat.add_assoc]

theorem takeBytes_append_dropBytes (n : Nat) (t : Text) : takeBytes n t ++ dropBytes n t = t := by
  induction t generalizing n with
  | nil => simp [takeBytes, dropBytes]
  | cons c rest ih =>
    by_cases h : n = 0
    · simp [takeBytes, dropBytes, h]
    · simp [takeBytes, dropBytes, h, ih]

end Text
end SchemaDiagram
