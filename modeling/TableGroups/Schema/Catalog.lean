import TableGroups.Schema.Change

/-!
# The schema catalog

A catalog owns the current schema.  An update makes its changes on a copy; if all of them succeed
the copy becomes current under the next generation, and otherwise nothing changes.  Snapshots are
schemas, so a retired generation stays readable for whoever holds it.

The catalog also keeps the associations of the current generation.  They are dropped when a new
generation is published.
-/

namespace TableGroups

/-- The current schema and the associations computed for it. -/
structure Catalog where
  current : Schema
  cache : AssociationCache

namespace Catalog

/-- A catalog whose schema is empty. -/
def empty : Catalog := ⟨.empty, .empty⟩

/-- Publish a schema as the next generation. -/
def publish (catalog : Catalog) (draft : Schema) : Catalog :=
  let generation := catalog.current.generation + 1
  ⟨{ draft with generation }, catalog.cache.retain generation⟩

/-- Make all of the changes or none.  The list says what the changes handed over, up to the first
that failed. -/
def update (catalog : Catalog) (changes : List SchemaChange) :
    List (Option Index) × Except SchemaError Catalog :=
  let (done, result) := catalog.current.applyAll changes
  (done, result.map catalog.publish)

/-- The association of an index in the current schema, and the catalog afterwards. -/
def association (catalog : Catalog) (name : IndexName) : Except Fault Association × Catalog :=
  let (answer, cache) := catalog.current.association catalog.cache name
  (answer, { catalog with cache })

end Catalog

end TableGroups
