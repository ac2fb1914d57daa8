import TableGroups.Cursor.Intersection

/-!
# Asking for an intersection

An `IntersectionRequest` collects what an intersection is to be made of; any part may still be
missing.  `build` checks the whole of it: both inputs and the join are there, each input has as
many fields as it is ordered on, there is one direction per compared field, no more fields are
compared than both inputs are ordered on, and the join can emit the rows of the chosen side.
-/

namespace TableGroups

/-- An input as it is asked for. -/
structure InputRequest (γ : Type) where
  cursor : γ
  /-- The type of the rows that count. -/
  rowType : RowType
  /-- The number of trailing fields that the rows are ordered on. -/
  orderingFields : Nat

/-- An intersection as it is asked for. -/
structure IntersectionRequest (L R : Type) where
  left : Option (InputRequest L)
  right : Option (InputRequest R)
  /-- How many of the ordering fields are compared. -/
  comparisonFields : Nat
  directions : List Direction
  join : Option (JoinType × Side)

/-- Why an intersection cannot be made. -/
inductive IntersectionError where
  /-- An input is missing. -/
  | missingInput (side : Side)
  /-- No join was chosen. -/
  | missingJoin
  /-- An input has fewer fields than it is said to be ordered on. -/
  | orderingTooWide (side : Side) (rowType : RowType) (fields : Nat)
  /-- There is not one direction per compared field. -/
  | directionCount (fields directions : Nat)
  /-- More fields are compared than an input is ordered on. -/
  | comparisonTooWide (fields ordered : Nat)
  /-- A join that keeps the rows of both sides was chosen. -/
  | fullJoin
  /-- The join cannot emit the rows of the side. -/
  | unsupportedOutput (join : JoinType) (output : Side)
  deriving DecidableEq

namespace IntersectionError

/-- The failure as a sentence. -/
def message : IntersectionError → String
  | .missingInput side => s!"ordered intersection requires a {side.label} input"
  | .missingJoin => "ordered intersection requires a join type"
  | .orderingTooWide side rowType fields =>
    s!"{side.label} input {rowType.display} has {rowType.fields.length} fields, " ++
      s!"cannot be ordered on {fields}"
  | .directionCount fields directions =>
    s!"ordered intersection compares {fields} fields but lists {directions} directions"
  | .comparisonTooWide fields ordered =>
    s!"ordered intersection compares {fields} fields, inputs are ordered on {ordered}"
  | .fullJoin => "ordered intersection does not support FULL_JOIN"
  | .unsupportedOutput join output =>
    s!"ordered intersection cannot combine {join.label} with {output.outputLabel}"

/-- The failure as it is reported. -/
def toFault (error : IntersectionError) : Fault :=
  ⟨.invalidArgument, .executor, error.message⟩

end IntersectionError

/-- The position of the first field that an input is ordered on. -/
def InputRequest.offset {γ : Type} (input : InputRequest γ) (side : Side) :
    Except IntersectionError Nat :=
  if input.rowType.fields.length < input.orderingFields then
    .error (.orderingTooWide side input.rowType input.orderingFields)
  else .ok (input.rowType.fields.length - input.orderingFields)

/-- Check that a join can emit the rows of a side. -/
def JoinType.check (join : JoinType) (output : Side) : Except IntersectionError Unit :=
  if join = .full then .error .fullJoin
  else if join.supports output then .ok ()
  else .error (.unsupportedOutput join output)

namespace IntersectionRequest

variable {L R : Type}

/-- A request that says nothing yet. -/
def none : IntersectionRequest L R := ⟨.none, .none, 0, [], .none⟩

/-- The closed intersection that was asked for, or the first thing that is wrong with the
request. -/
def build (request : IntersectionRequest L R) :
    Except IntersectionError (Intersection L R) := do
  let some left := request.left | throw (.missingInput .left)
  let some right := request.right | throw (.missingInput .right)
  let some (join, output) := request.join | throw .missingJoin
  let leftOffset ← left.offset .left
  let rightOffset ← right.offset .right
  if request.directions.length ≠ request.comparisonFields then
    throw (.directionCount request.comparisonFields request.directions.length)
  let ordered := min left.orderingFields right.orderingFields
  if ordered < request.comparisonFields then
    throw (.comparisonTooWide request.comparisonFields ordered)
  join.check output
  return {
    left := .fresh left.cursor left.rowType leftOffset
    right := .fresh right.cursor right.rowType rightOffset
    comparator := ⟨request.directions⟩
    join
    output
    checkOrder := true
    stats := .zero
    lifecycle := .initial }

end IntersectionRequest

end TableGroups
