import TableGroups.Schema

/-!
# Changes of a schema

A `SchemaChange` is a change as data, so that several can be tried as one: `Schema.applyAll` makes
them in order and stops at the first that fails.
-/

namespace TableGroups

/-- A change of a schema. -/
inductive SchemaChange where
  /-- Register a group. -/
  | addGroup (group : Group)
  /-- Register an index. -/
  | addIndex (index : Index)
  /-- Drop an index. -/
  | dropIndex (name : IndexName)
  /-- Define an index over one column of a table and register it. -/
  | indexColumn (table : Table) (name column : String)

/-- A plain index over one column of a table, ascending. -/
def indexOverColumn (table : Table) (name column : String) : Except IndexError Index := do
  let draft := IndexDraft.overTable table name false .key
  let draft ← draft.addColumnNamed table column 0 .asc
  draft.build

namespace Schema

/-- Make one change.  With the changed schema comes the index that was dropped, if one was. -/
def apply (schema : Schema) : SchemaChange → Except SchemaError (Option Index × Schema)
  | .addGroup group => (schema.addGroup group).map fun changed => (none, changed)
  | .addIndex index => (schema.addIndex index).map fun changed => (none, changed)
  | .dropIndex name => (schema.dropIndex name).map fun (index, changed) => (some index, changed)
  | .indexColumn table name column => do
    let index ← (indexOverColumn table name column).mapError .index
    let changed ← schema.addIndex index
    return (none, changed)

/-- Make changes in order until one fails: what the changes before it handed over, and the changed
schema or the failure. -/
def applyAll (schema : Schema) :
    List SchemaChange → List (Option Index) × Except SchemaError Schema
  | [] => ([], .ok schema)
  | change :: rest =>
    match schema.apply change with
    | .error e => ([], .error e)
    | .ok (dropped, changed) =>
      let (done, result) := changed.applyAll rest
      (dropped :: done, result)

end Schema

end TableGroups
