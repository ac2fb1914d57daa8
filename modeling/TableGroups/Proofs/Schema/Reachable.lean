import TableGroups.Proofs.Schema.Consistency

/-!
# Which registered indexes can be associated

The association of a built index asks for the number of every table of its leaf's lineage, and for
nothing else if no two of these have one name (`Index.Built.exists_compute_iff`).

`Schema.addIndex` looks at less.  It asks whether the tables of the branch are known, not those
above it, and it knows tables by their names.  So a schema can hold an index whose leaf is another
table than the registered one of its name, and then nothing says that the tables above it are
registered (`Schema.registered_index_without_association`).  If the leaf is the registered table,
its lineage is registered with it, and the index can be associated
(`Schema.Reachable.exists_compute`).
-/

namespace TableGroups

variable {index : Index}

namespace Schema

/-! ### Schemas that can be made -/

/-- The schemas that come of the empty one by changes, whose groups and indexes have been built, and
by moves to another generation. -/
inductive Reachable : Schema → Prop where
  | empty : Reachable .empty
  | changed {schema changed : Schema} {change : SchemaChange} {dropped : Option Index}
      (hschema : Reachable schema) (hformed : change.Formed)
      (happly : schema.apply change = .ok (dropped, changed)) : Reachable changed
  | published {schema : Schema} (hschema : Reachable schema) (generation : Nat) :
      Reachable { schema with generation }

variable {schema : Schema} {name : IndexName}

/-- The schema after one change was tried, and the same schema if the change fails. -/
def tryChange (schema : Schema) (change : SchemaChange) : Schema :=
  match schema.apply change with
  | .error _ => schema
  | .ok (_, changed) => changed

/-- The schema after changes were tried one after the other. -/
def tryAll (schema : Schema) (changes : List SchemaChange) : Schema :=
  changes.foldl tryChange schema

theorem Reachable.tryChange (h : schema.Reachable) {change : SchemaChange}
    (hformed : change.Formed) : (schema.tryChange change).Reachable := by
  unfold Schema.tryChange
  split
  · exact h
  · next happly => exact h.changed hformed happly

/-- Whatever is tried, the schema is one that can be made. -/
theorem Reachable.tryAll (h : schema.Reachable) {changes : List SchemaChange}
    (hformed : ∀ change ∈ changes, change.Formed) : (schema.tryAll changes).Reachable := by
  induction changes generalizing schema with
  | nil => exact h
  | cons change rest ih =>
    rw [List.forall_mem_cons] at hformed
    exact ih (h.tryChange hformed.1) hformed.2

theorem Reachable.coherent (h : schema.Reachable) : schema.Coherent := by
  induction h with
  | empty => exact coherent_empty 0
  | changed _ hformed happly ih => exact ih.apply hformed happly
  | published _ generation ih => exact ih.withGeneration generation

/-- **A registered index can be associated if its leaf is registered.**  Take a schema that can be
made and an index that it holds.  If the leaf of the index is the table that is registered under the
leaf's name, then the association of the index under the numbers of the schema is computed.  In
general, as long as the tables that the leaf hangs from have distinct names, it is computed exactly
if all of these names are registered. -/
theorem Reachable.exists_compute (h : schema.Reachable) (hindex : schema.index? name = some index) :
    (schema.table? index.leaf.name = some index.leaf →
        ∃ association, Association.compute index schema.ordinals = .ok association) ∧
      ((index.leaf.lineage.map (·.name)).Nodup →
        ((∃ association, Association.compute index schema.ordinals = .ok association) ↔
          ∀ table ∈ index.leaf.lineage, (schema.table? table.name).isSome)) := by
  have hcoherent := h.coherent
  obtain ⟨hbuilt, hdeclared⟩ := hcoherent.indexes hindex
  have hcriterion (hnames : (index.leaf.lineage.map (·.name)).Nodup) :
      (∃ association, Association.compute index schema.ordinals = .ok association) ↔
        ∀ table ∈ index.leaf.lineage, (schema.table? table.name).isSome := by
    rw [hbuilt.exists_compute_iff hdeclared.sound hnames]
    simp only [hcoherent.isSome_ordinal?_iff]
  refine ⟨fun hleaf => ?_, hcriterion⟩
  refine (hcriterion (hcoherent.nodup_names_lineage hleaf)).mpr fun table htable => ?_
  rw [hcoherent.table?_of_mem_lineage hleaf htable]
  rfl

/-- The lines of sales are registered with their group, and an index over them. -/
theorem exists_compute_linesByPrice :
    let schema := empty.tryAll [.addGroup .shopTables, .addIndex .linesByPrice]
    schema.Reachable ∧ schema.index? Index.linesByPrice.name = some .linesByPrice ∧
      schema.table? Table.lines.name = some .lines ∧
      ∃ association, Association.compute .linesByPrice schema.ordinals = .ok association := by
  intro schema
  have hreachable : schema.Reachable := by
    refine Reachable.empty.tryAll ?_
    rw [List.forall_mem_cons, List.forall_mem_singleton]
    exact ⟨Group.formed_shopTables, Index.built_linesByPrice, Table.declared_lines⟩
  have hindex : schema.index? Index.linesByPrice.name = some .linesByPrice := by decide +kernel
  have hleaf : schema.table? Table.lines.name = some .lines := by decide +kernel
  exact ⟨hreachable, hindex, hleaf, (hreachable.exists_compute hindex).1 hleaf⟩

/-- A table of lines that hangs from nothing. -/
def looseLines : Table :=
  .root ⟨⟨"db", "lines"⟩, [⟨"line", 0, .int, false⟩], [0]⟩

theorem declared_looseLines : looseLines.Declared := by
  have hresolve : TableDeclaration.resolve
      ⟨⟨"db", "lines"⟩, [⟨"line", .int, false⟩], ["line"], none⟩ = .ok looseLines := rfl
  exact .resolved (by simp) hresolve

/-- **A registered index may have no association.**  A group of loose lines is registered, and then
an index over the lines of sales, which is taken in because some table of the name of its leaf is
known.  Its association asks for the number of the shops, which are not registered. -/
theorem registered_index_without_association :
    let schema := empty.tryAll [.addGroup ⟨"lines", looseLines, []⟩, .addIndex .linesByPrice]
    looseLines.Declared ∧ schema.Reachable ∧
      schema.index? Index.linesByPrice.name = some .linesByPrice ∧
      Association.compute .linesByPrice schema.ordinals =
        .error (.missingOrdinal Index.linesByPrice.name Table.shops.name) ∧
      ¬ ∀ (schema : Schema) (name : IndexName) (index : Index), schema.Reachable →
        schema.index? name = some index →
          ∃ association, Association.compute index schema.ordinals = .ok association := by
  intro schema
  have hreachable : schema.Reachable := by
    have hstart : Group.start "lines" looseLines = .ok ⟨"lines", looseLines, []⟩ := by decide
    refine Reachable.empty.tryAll ?_
    rw [List.forall_mem_cons, List.forall_mem_singleton]
    exact ⟨.start hstart, Index.built_linesByPrice, Table.declared_lines⟩
  have hindex : schema.index? Index.linesByPrice.name = some .linesByPrice := by decide +kernel
  have herror : Association.compute .linesByPrice schema.ordinals =
      .error (.missingOrdinal Index.linesByPrice.name Table.shops.name) := by decide +kernel
  refine ⟨declared_looseLines, hreachable, hindex, herror, fun h => ?_⟩
  obtain ⟨association, hassociation⟩ := h schema _ _ hreachable hindex
  rw [herror] at hassociation
  cases hassociation

end Schema

end TableGroups
