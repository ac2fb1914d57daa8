import TableGroups.Direction

/-!
# Row orderings

The order that a stream of rows is asked to be in: fields by position, each in a direction, most
significant first.
-/

namespace TableGroups

/-- One field of an ordering. -/
structure OrderingField where
  position : Nat
  direction : Direction
  deriving DecidableEq

/-- The fields of an ordering, most significant first. -/
abbrev RowOrdering := List OrderingField

namespace RowOrdering

/-- The given positions, all in one direction. -/
def uniform (positions : List Nat) (direction : Direction) : RowOrdering :=
  positions.map fun position => ⟨position, direction⟩

/-- The directions of the fields. -/
def directions (ordering : RowOrdering) : List Direction :=
  ordering.map (·.direction)

/-- The same fields, every one the other way round. -/
def reversed (ordering : RowOrdering) : RowOrdering :=
  ordering.map fun field => { field with direction := field.direction.reverse }

end RowOrdering

end TableGroups
