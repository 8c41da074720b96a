import SchemaDiagram.Text.Basic

/-! # Kinds of relationship

A relationship is written with one of four signs. `>` and `<` point at one end, `<>` at both and
`-` at neither.
-/
namespace SchemaDiagram

inductive RelationKind
  | oneToOne
  | forward
  | backward
  | manyToMany
  deriving DecidableEq, Repr

namespace RelationKind

def symbol : RelationKind → Text
  | oneToOne => ['-']
  | forward => ['>']
  | backward => ['<']
  | manyToMany => ['<', '>']

def ofSymbol? : Text → Option RelationKind
  | ['-'] => some oneToOne
  | ['>'] => some forward
  | ['<'] => some backward
  | ['<', '>'] => some manyToMany
  | _ => none

/-- An arrow head stands where the line meets the table it comes from. -/
def pointsAtFrom : RelationKind → Bool
  | backward | manyToMany => true
  | oneToOne | forward => false

/-- An arrow head stands where the line meets the table it goes to. -/
def pointsAtTo : RelationKind → Bool
  | forward | manyToMany => true
  | oneToOne | backward => false

/-- The kind of the same relationship written from its other end. -/
def reversed : RelationKind → RelationKind
  | forward => backward
  | backward => forward
  | k => k

@[simp] theorem ofSymbol?_symbol (k : RelationKind) : ofSymbol? k.symbol = some k := by
  cases k <;> rfl

theorem pointsAtFrom_reversed (k : RelationKind) : k.reversed.pointsAtFrom = k.pointsAtTo := by
  cases k <;> rfl

theorem pointsAtTo_reversed (k : RelationKind) : k.reversed.pointsAtTo = k.pointsAtFrom := by
  cases k <;> rfl

end RelationKind
end SchemaDiagram
