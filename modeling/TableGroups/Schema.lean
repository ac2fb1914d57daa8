import TableGroups.Association.Cache
import TableGroups.Index.Draft

/-!
# Schemas

A schema is one generation of metadata: groups, the tables of these groups, and indexes over the
tables.  `addGroup`, `addIndex` and `dropIndex` change it; each leaves it as it was when it fails.

The ordinals of a schema number the tables of its groups, and the association of an index under
these ordinals is looked up through a cache.
-/

namespace TableGroups

/-- Groups, tables and indexes of one generation. -/
structure Schema where
  generation : Nat
  groups : SortedMap String Group
  tables : SortedMap TableName Table
  indexes : SortedMap IndexName Index

namespace Schema

/-- The schema without groups, at generation zero. -/
def empty : Schema := ⟨0, .empty, .empty, .empty⟩

/-- The group with a name. -/
def group? (schema : Schema) (name : String) : Option Group :=
  schema.groups.find? name

/-- The table with a name. -/
def table? (schema : Schema) (name : TableName) : Option Table :=
  schema.tables.find? name

/-- The index with a name. -/
def index? (schema : Schema) (name : IndexName) : Option Index :=
  schema.indexes.find? name

/-- Register a group and all of its tables; neither its name nor a name of its tables may be
taken. -/
def addGroup (schema : Schema) (group : Group) : Except SchemaError Schema :=
  if schema.groups.contains group.name then .error (.duplicateGroup group.name)
  else
    let tables := group.depthFirst
    match tables.find? fun table => schema.tables.contains table.name with
    | some taken => .error (.duplicateTable taken.name)
    | none =>
      .ok { schema with
        groups := schema.groups.insert group.name group
        tables := tables.foldl (fun acc table => acc.insert table.name table) schema.tables }

/-- Register an index; its name must be free and the tables of its branch known by name. -/
def addIndex (schema : Schema) (index : Index) : Except SchemaError Schema :=
  if schema.indexes.contains index.name then .error (.duplicateIndex index.name)
  else
    match index.branch.find? fun table => !schema.tables.contains table.name with
    | some missing => .error (.unknownTable missing.name)
    | none => .ok { schema with indexes := schema.indexes.insert index.name index }

/-- Take an index out, and hand it over. -/
def dropIndex (schema : Schema) (name : IndexName) : Except SchemaError (Index × Schema) :=
  match schema.indexes.find? name with
  | none => .error (.unknownIndex name)
  | some index => .ok (index, { schema with indexes := schema.indexes.erase name })

/-- The numbers of the tables in this generation. -/
def ordinals (schema : Schema) : Ordinals :=
  .ofGroups schema.groups.values schema.generation

/-- The association of a registered index in this generation, by way of a cache, and the cache
afterwards. -/
def association (schema : Schema) (cache : AssociationCache) (name : IndexName) :
    Except Fault Association × AssociationCache :=
  match schema.index? name with
  | none => (.error (SchemaError.unknownIndex name).toFault, cache)
  | some index =>
    let (answer, cache) := cache.get index schema.ordinals
    (answer.mapError IndexError.toFault, cache)

end Schema

end TableGroups
