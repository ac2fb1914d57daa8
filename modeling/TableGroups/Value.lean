import TableGroups.Binary64

/-!
# Values

A `Value` is one typed field of a row: null, or a scalar of one of six kinds.  A `FieldKind` is
what a column admits; `any` belongs to derived row types whose fields are not constrained.  Null
fits every kind, and whether a column may hold it is the column's own affair.

Two equalities exist.  Equality of Lean values tells every two bit patterns apart.
`Value.agrees` is equality of fields as rows, segments and key ranges use it: floats are compared
as numbers there, and only there does it differ.
-/

namespace TableGroups

/-- The semantic type of a field. -/
inductive FieldKind where
  | bool
  | int
  | uint
  | float64
  | text
  | blob
  | any
  deriving DecidableEq

namespace FieldKind

/-- How messages name a kind. -/
def label : FieldKind → String
  | .bool => "bool"
  | .int => "int"
  | .uint => "uint"
  | .float64 => "float64"
  | .text => "text"
  | .blob => "blob"
  | .any => "any"

/-- The kinds in the order in which they are declared. -/
def all : List FieldKind :=
  [.bool, .int, .uint, .float64, .text, .blob, .any]

end FieldKind

/-- One typed field of a row. -/
inductive Value where
  | null
  | bool (b : Bool)
  | int (i : Int64)
  | uint (u : UInt64)
  | float64 (x : Binary64)
  | text (s : String)
  | blob (bytes : List UInt8)
  deriving DecidableEq

namespace Value

instance : Inhabited Value := ⟨.null⟩

/-- Whether the value is null. -/
def isNull : Value → Bool
  | .null => true
  | _ => false

/-- The kind of a value that is not null. -/
def kind? : Value → Option FieldKind
  | .null => none
  | .bool _ => some .bool
  | .int _ => some .int
  | .uint _ => some .uint
  | .float64 _ => some .float64
  | .text _ => some .text
  | .blob _ => some .blob

/-- Whether a field of kind `kind` may hold the value. -/
def fits (v : Value) (kind : FieldKind) : Bool :=
  match v.kind? with
  | none => true
  | some own => kind == .any || own == kind

/-- Equality of fields: that of values, except that floats are compared as numbers. -/
def agrees : Value → Value → Bool
  | .float64 x, .float64 y => x.agrees y
  | v, w => v == w

/-- Equality of rows of fields, place by place and with nothing left over. -/
def allAgree (vs ws : List Value) : Bool :=
  List.isEqv vs ws agrees

end Value

end TableGroups
