/-!
# Directions

Every ordered column carries a `Direction`: an index keeps a column ascending or descending, and a
scan or a merge asks for one.  A direction acts on the outcome of a comparison through `orient`,
which is all the comparators of this library need from it: turning a column round swaps the outcome
(`orient_reverse`), and no direction makes fields equal that are not (`orient_eq_eq_iff`).
-/

namespace TableGroups

/-- Which way a column runs. -/
inductive Direction where
  | asc
  | desc
  deriving DecidableEq

namespace Direction

/-- A column runs ascending unless it is declared otherwise. -/
instance : Inhabited Direction := ⟨.asc⟩

/-- The direction of a column that is declared ascending or not. -/
def ofAscending (ascending : Bool) : Direction :=
  if ascending then .asc else .desc

/-- The opposite direction. -/
def reverse : Direction → Direction
  | .asc => .desc
  | .desc => .asc

/-- Whether the column runs from low to high. -/
def isAscending : Direction → Bool
  | .asc => true
  | .desc => false

/-- How messages name a direction. -/
def label : Direction → String
  | .asc => "ASC"
  | .desc => "DESC"

/-- The outcome of a comparison as a column of this direction sees it. -/
def orient : Direction → Ordering → Ordering
  | .asc, outcome => outcome
  | .desc, outcome => outcome.swap

@[simp] theorem reverse_reverse (d : Direction) : d.reverse.reverse = d := by
  cases d <;> rfl

@[simp] theorem orient_eq (d : Direction) : d.orient .eq = .eq := by
  cases d <;> rfl

/-- Turning a column round swaps what it says of any two fields. -/
@[simp] theorem orient_reverse (d : Direction) (o : Ordering) :
    d.reverse.orient o = (d.orient o).swap := by
  cases d <;> cases o <;> rfl

/-- Only fields that compare equal are equal to a column, whichever way it runs. -/
@[simp] theorem orient_eq_eq_iff (d : Direction) (o : Ordering) : d.orient o = .eq ↔ o = .eq := by
  cases d <;> cases o <;> decide

end Direction

/-- The directions of several columns as messages list them. -/
def directionLabels (directions : List Direction) : String :=
  ",".intercalate (directions.map Direction.label)

end TableGroups
