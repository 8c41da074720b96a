import SchemaDiagram.Routing.Path

/-! # What a path draws

The commands of a path move a pen, and what the pen draws is a list of pieces: lines and curves with both of their
ends. The way back along a path is the list of the same pieces from the other end, and it comes by the same points.
-/
namespace SchemaDiagram

variable {α : Type}

/-! ## Pieces -/

/-- A line or a curve of a path, with the point it starts at. -/
inductive Piece (α : Type)
  | line (start stop : Point α)
  | quad (start control stop : Point α)
  | cubic (start control1 control2 stop : Point α)

namespace Piece

/-- The same piece from its other end. -/
def reversed : Piece α → Piece α
  | line p q => line q p
  | quad p c q => quad q c p
  | cubic p c d q => cubic q d c p

def map (f : Point α → Point α) : Piece α → Piece α
  | line p q => line (f p) (f q)
  | quad p c q => quad (f p) (f c) (f q)
  | cubic p c d q => cubic (f p) (f c) (f d) (f q)

/-- The lines from the start by the control points to the end. -/
def legs : Piece α → List (Point α × Point α)
  | line p q => [(p, q)]
  | quad p c q => [(p, c), (c, q)]
  | cubic p c d q => [(p, c), (c, d), (d, q)]

theorem reversed_reversed (piece : Piece α) : piece.reversed.reversed = piece := by
  cases piece <;> rfl

theorem map_reversed (f : Point α → Point α) (piece : Piece α) : piece.reversed.map f = (piece.map f).reversed := by
  cases piece <;> rfl

end Piece

/-- What commands draw with a pen that stands at a point. -/
def drawnFrom (pen : Point α) : List (PathCommand α) → List (Piece α)
  | [] => []
  | .moveTo p :: rest => drawnFrom p rest
  | .lineTo p :: rest => .line pen p :: drawnFrom p rest
  | .quadTo c p :: rest => .quad pen c p :: drawnFrom p rest
  | .cubicTo c d p :: rest => .cubic pen c d p :: drawnFrom p rest

/-- What a path draws; its first command puts the pen down. -/
def pieces : List (PathCommand α) → List (Piece α)
  | [] => []
  | c :: rest => drawnFrom c.stop rest

theorem pieces_lineTo (p q : Point α) (rest : List (PathCommand α)) :
    pieces (.moveTo p :: .lineTo q :: rest) = .line p q :: drawnFrom q rest := rfl

theorem drawnFrom_map (f : Point α → Point α) (pen : Point α) (commands : List (PathCommand α)) :
    drawnFrom (f pen) (commands.map (·.map f)) = (drawnFrom pen commands).map (·.map f) := by
  induction commands generalizing pen with
  | nil => rfl
  | cons c rest ih =>
      cases c with
      | moveTo p => exact ih p
      | lineTo p => exact congrArg (.line (f pen) (f p) :: ·) (ih p)
      | quadTo c p => exact congrArg (.quad (f pen) (f c) (f p) :: ·) (ih p)
      | cubicTo c d p => exact congrArg (.cubic (f pen) (f c) (f d) (f p) :: ·) (ih p)

theorem pieces_map (f : Point α → Point α) (commands : List (PathCommand α)) :
    pieces (commands.map (·.map f)) = (pieces commands).map (·.map f) := by
  cases commands with
  | nil => rfl
  | cons c rest =>
      have hstop : (c.map f).stop = f c.stop := by cases c <;> rfl
      rw [List.map_cons, pieces, hstop, drawnFrom_map, pieces]

/-! ## The way back -/

/-- The command that draws the same from its end to `p`. -/
def PathCommand.backTo (p : Point α) : PathCommand α → PathCommand α
  | moveTo _ => moveTo p
  | lineTo _ => lineTo p
  | quadTo c _ => quadTo c p
  | cubicTo c d _ => cubicTo d c p

/-- The way back from the end of `commands` to `pen`, and then `more`. -/
def wayBack (pen : Point α) (more : List (PathCommand α)) : List (PathCommand α) → List (PathCommand α)
  | [] => .moveTo pen :: more
  | c :: rest => wayBack c.stop (c.backTo pen :: more) rest

theorem pieces_wayBack (pen : Point α) (more commands : List (PathCommand α)) :
    pieces (wayBack pen more commands) =
      (drawnFrom pen commands).reverse.map Piece.reversed ++ drawnFrom pen more := by
  induction commands generalizing pen more with
  | nil => rfl
  | cons c rest ih =>
      rw [wayBack, ih]
      cases c <;> simp [PathCommand.backTo, PathCommand.stop, drawnFrom, Piece.reversed]

theorem pathPoints_wayBack [Coordinate α] (pen : Point α) (more commands : List (PathCommand α)) :
    pathPoints (wayBack pen more commands) = (pen :: pathPoints commands).reverse ++ pathPoints more := by
  induction commands generalizing pen more with
  | nil => rfl
  | cons c rest ih =>
      rw [wayBack, ih]
      cases c <;> simp [pathPoints, PathCommand.backTo, PathCommand.stop, PathCommand.points]

/-- The second path is the first one from its other end. -/
structure TurnedBack [Coordinate α] (commands commands' : List (PathCommand α)) : Prop where
  pieces_eq : pieces commands' = (pieces commands).reverse.map Piece.reversed
  points_eq : pathPoints commands' = (pathPoints commands).reverse

theorem TurnedBack.symm [Coordinate α] {commands commands' : List (PathCommand α)} (h : TurnedBack commands commands') :
    TurnedBack commands' commands where
  pieces_eq := by
    rw [h.pieces_eq, ← List.map_reverse, List.reverse_reverse, List.map_map]
    exact (List.map_id'' Piece.reversed_reversed _).symm
  points_eq := by rw [h.points_eq, List.reverse_reverse]

theorem turnedBack_wayBack [Coordinate α] (start : Point α) (commands : List (PathCommand α)) :
    TurnedBack (.moveTo start :: commands) (wayBack start [] commands) where
  pieces_eq := by rw [pieces_wayBack, drawnFrom, List.append_nil]; rfl
  points_eq := by rw [pathPoints_wayBack]; exact List.append_nil _

theorem getLast?_pathPoints [Coordinate α] {commands : List (PathCommand α)} {c : PathCommand α}
    (h : commands.getLast? = some c) : (pathPoints commands).getLast? = some c.stop := by
  obtain ⟨front, rfl⟩ := List.getLast?_eq_some_iff.mp h
  have hpoints : pathPoints (front ++ [c]) = pathPoints front ++ c.points := by simp [pathPoints]
  rw [hpoints, List.getLast?_append]
  cases c <;> rfl

end SchemaDiagram
