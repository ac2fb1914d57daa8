import TableGroups.Config
import TableGroups.Index
import TableGroups.Json.Form

/-!
# Metadata in JSON

How values, names, columns, the choices of index definitions and execution configurations are
written in JSON.
-/

namespace TableGroups

namespace Json

/-- The directions by name. -/
def directionNames : List (String × Direction) :=
  [("Asc", .asc), ("Desc", .desc)]

/-- The kinds of fields by name. -/
def fieldKindNames : List (String × FieldKind) :=
  [("Bool", .bool), ("Int", .int), ("Uint", .uint), ("Float64", .float64), ("Text", .text),
    ("Blob", .blob), ("Any", .any)]

/-- The constraints by name. -/
def constraintNames : List (String × IndexConstraint) :=
  [("PrimaryKey", .primaryKey), ("Unique", .unique), ("Key", .key), ("ForeignKey", .foreignKey)]

/-- The joins of group indexes by name. -/
def groupJoinNames : List (String × GroupJoin) :=
  [("Left", .left), ("Right", .right)]

/-- The kinds of indexes by name. -/
def indexKindNames : List (String × IndexKind) :=
  [("Table", .table), ("Group", .group)]

/-- A direction. -/
def direction? : Reading Direction :=
  plainChoice? directionNames

/-- The kind of a field. -/
def fieldKind? : Reading FieldKind :=
  plainChoice? fieldKindNames

/-- A constraint. -/
def constraint? : Reading IndexConstraint :=
  plainChoice? constraintNames

/-- The join of a group index. -/
def groupJoin? : Reading GroupJoin :=
  plainChoice? groupJoinNames

/-- The kind of an index. -/
def indexKind? : Reading IndexKind :=
  plainChoice? indexKindNames

/-- The id of an index. -/
def indexId? : Reading IndexId := fun document => do
  let n ← document.nat?
  if h : n < 0x10000 then return ⟨n, h⟩ else none

/-- The name of a table. -/
def tableName? : Reading TableName := fun document => do
  match ← document.record? ["schema", "table"] with
  | [schema, table] => return ⟨← schema.text?, ← table.text?⟩
  | _ => none

/-- The name of an index. -/
def indexName? : Reading IndexName := fun document => do
  match ← document.record? ["table", "name"] with
  | [table, name] => return ⟨← table.tableName?, ← name.text?⟩
  | _ => none

/-- A column. -/
def column? : Reading Column := fun document => do
  match ← document.record? ["name", "position", "kind", "nullable"] with
  | [name, position, kind, nullable] =>
    return ⟨← name.text?, ← position.nat?, ← kind.fieldKind?, ← nullable.bool?⟩
  | _ => none

/-- A value, as a choice of its kind. -/
def value? : Reading Value := fun document => do
  match ← document.choice? with
  | ("Null", none) => return .null
  | ("Null", some .null) => return .null
  | ("Bool", some content) => return .bool (← content.bool?)
  | ("Int", some content) => return .int (← content.int64?)
  | ("Uint", some content) => return .uint (← content.nat?).toUInt64
  | ("Float64", some content) => return .float64 (← content.binary64?)
  | ("Text", some content) => return .text (← content.text?)
  | ("Blob", some content) => return .blob ((← content.listOf? (natBelow? 256)).map Nat.toUInt8)
  | _ => none

/-- An execution configuration, with defaults for absent fields and no fields but its own. -/
def config? : Reading ExecutionConfig := fun document => do
  let standard := ExecutionConfig.standard
  match ← document.fields? true ["timeout_ms", "check_input_order", "record_metrics"] with
  | [timeout, order, metrics] =>
    let timeoutMs ← (timeout.map (·.optional? nat?)).getD (some standard.timeoutMs)
    let checkInputOrder ← (order.map bool?).getD (some standard.checkInputOrder)
    let recordMetrics ← (metrics.map bool?).getD (some standard.recordMetrics)
    return ⟨timeoutMs, checkInputOrder, recordMetrics⟩
  | _ => none

end Json

/-- The execution configuration that a text is. -/
def ExecutionConfig.ofText (text : String) : Except ConfigError ExecutionConfig :=
  match (Json.ofText? text).bind Json.config? with
  | none => .error .unreadable
  | some config => config.validate

end TableGroups
