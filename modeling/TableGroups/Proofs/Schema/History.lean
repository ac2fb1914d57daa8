import TableGroups.Proofs.Schema.Consistency
import TableGroups.Schema.Catalog

/-!
# Histories of a catalog

An update makes its changes on a copy of the current schema, and only if all of them succeed does
the copy become current.  So a catalog is what its accepted updates made of it, and the others might
as well not have been tried: the generation counts the accepted updates, and all of their changes in
order lead from the empty schema to the groups, tables and indexes of the current one
(`CatalogHistory.current_of_accepted`).

Two things are needed for that.  Changes do not look at the generation (`Schema.apply_generation`),
which the catalog moves between updates, and a list of changes may be made in parts
(`Schema.applyAll_append`).
-/

namespace TableGroups

namespace Schema

/-! ### Changes in parts -/

/-- A change does not depend on the generation, and keeps it. -/
theorem apply_generation (schema : Schema) (change : SchemaChange) (generation : Nat) :
    Schema.apply { schema with generation } change =
      (schema.apply change).map fun (dropped, changed) =>
        (dropped, { changed with generation }) := by
  have haddIndex (index : Index) : addIndex { schema with generation } index =
      (schema.addIndex index).map fun changed => { changed with generation } := by
    simp only [addIndex]
    split
    · rfl
    · split <;> rfl
  cases change with
  | addGroup group =>
    simp only [apply, addGroup]
    split
    · rfl
    · split <;> rfl
  | addIndex index =>
    simp only [apply, haddIndex]
    cases schema.addIndex index <;> rfl
  | dropIndex name =>
    simp only [apply, dropIndex]
    split <;> rfl
  | indexColumn table name column =>
    simp only [apply, haddIndex]
    cases (indexOverColumn table name column).mapError SchemaError.index with
    | error e => rfl
    | ok index =>
      simp only [bind, Except.bind]
      cases schema.addIndex index <;> rfl

theorem applyAll_generation (schema : Schema) (changes : List SchemaChange) (generation : Nat) :
    (applyAll { schema with generation } changes).2 =
      (schema.applyAll changes).2.map fun changed => { changed with generation } := by
  induction changes generalizing schema with
  | nil => rfl
  | cons change rest ih =>
    rw [applyAll, applyAll, apply_generation]
    cases schema.apply change with
    | error e => rfl
    | ok step => exact ih step.2

theorem applyAll_append (schema : Schema) (first second : List SchemaChange) :
    (schema.applyAll (first ++ second)).2 =
      (schema.applyAll first).2.bind fun changed => (changed.applyAll second).2 := by
  induction first generalizing schema with
  | nil => rfl
  | cons change rest ih =>
    rw [List.cons_append, applyAll, applyAll]
    cases schema.apply change with
    | error e => rfl
    | ok step => exact ih step.2

end Schema

/-- A catalog and the updates that it has accepted. -/
structure CatalogHistory where
  catalog : Catalog
  /-- The accepted updates, the first one first. -/
  accepted : List (List SchemaChange)

namespace CatalogHistory

/-- A new catalog. -/
def start : CatalogHistory := ⟨.empty, []⟩

/-- The history after an update was tried; one that fails leaves it as it was. -/
def step (history : CatalogHistory) (changes : List SchemaChange) : CatalogHistory :=
  match (history.catalog.update changes).2 with
  | .error _ => history
  | .ok catalog => ⟨catalog, history.accepted ++ [changes]⟩

/-- The history after updates were tried one after the other. -/
def run (history : CatalogHistory) (updates : List (List SchemaChange)) : CatalogHistory :=
  updates.foldl step history

/-- The catalog is what the accepted updates made of it. -/
structure Faithful (history : CatalogHistory) : Prop where
  generation : history.catalog.current.generation = history.accepted.length
  current : (Schema.empty.applyAll history.accepted.flatten).2 =
    .ok { history.catalog.current with generation := 0 }
  coherent : history.catalog.current.Coherent

variable {history : CatalogHistory} {changes : List SchemaChange}

theorem faithful_start : start.Faithful :=
  ⟨rfl, rfl, Schema.coherent_empty 0⟩

/-- An update that is not accepted leaves the history as it was. -/
theorem step_eq (history : CatalogHistory) (changes : List SchemaChange) :
    history.step changes = history ∨
      ∃ changed, (history.catalog.current.applyAll changes).2 = .ok changed ∧
        history.step changes =
          ⟨history.catalog.publish changed, history.accepted ++ [changes]⟩ := by
  cases hresult : (history.catalog.current.applyAll changes).2 with
  | error e => exact .inl (by simp only [step, Catalog.update, hresult]; rfl)
  | ok changed =>
    exact .inr ⟨changed, rfl, by simp only [step, Catalog.update, hresult]; rfl⟩

theorem Faithful.step (h : history.Faithful) (hformed : ∀ change ∈ changes, change.Formed) :
    (history.step changes).Faithful := by
  rcases history.step_eq changes with hsame | ⟨changed, hchanged, hstep⟩
  · rw [hsame]
    exact h
  rw [hstep]
  refine
    { generation := ?_
      current := ?_
      coherent := (h.coherent.applyAll hformed hchanged).withGeneration _ }
  · rw [List.length_append, List.length_singleton, ← h.generation]
    rfl
  · -- the same changes, made one generation after the other or all in generation zero
    rw [List.flatten_append, List.flatten_singleton, Schema.applyAll_append, h.current]
    refine (Schema.applyAll_generation history.catalog.current changes 0).trans ?_
    rw [hchanged]
    rfl

theorem Faithful.run (h : history.Faithful) {updates : List (List SchemaChange)}
    (hformed : ∀ changes ∈ updates, ∀ change ∈ changes, change.Formed) :
    (history.run updates).Faithful := by
  induction updates generalizing history with
  | nil => exact h
  | cons changes rest ih =>
    rw [List.forall_mem_cons] at hformed
    exact ih (h.step hformed.1) hformed.2

/-- **A catalog is what its accepted updates made of it, and its schema is consistent.**  Take any
updates of a new catalog, of which some may fail.  The generation is the number of accepted updates;
the changes of these in order make the current groups, tables and indexes out of the empty schema;
and the current schema is consistent. -/
theorem current_of_accepted (updates : List (List SchemaChange))
    (hformed : ∀ changes ∈ updates, ∀ change ∈ changes, change.Formed) :
    let history := start.run updates
    history.catalog.current.generation = history.accepted.length ∧
      (Schema.empty.applyAll history.accepted.flatten).2 =
        .ok { history.catalog.current with generation := 0 } ∧
      history.catalog.current.Consistent := by
  intro history
  have h : history.Faithful := faithful_start.run hformed
  exact ⟨h.generation, h.current, h.coherent.consistent⟩

/-- A group and an index are added.  The second update drops the index before it fails, since shops
are registered already; the third one drops it. -/
def shopUpdates : List (List SchemaChange) :=
  [[.addGroup .shopTables, .addIndex .linesByPrice],
    [.dropIndex Index.linesByPrice.name, .addGroup ⟨"twice", .shops, []⟩],
    [.dropIndex Index.linesByPrice.name]]

/-- The update that fails leaves no trace, and the one after it takes the index out. -/
theorem current_of_accepted_shopUpdates :
    let history := start.run shopUpdates
    (∀ changes ∈ shopUpdates, ∀ change ∈ changes, change.Formed) ∧
      history.accepted.length = 2 ∧
      ((start.run (shopUpdates.take 2)).catalog.current.index? Index.linesByPrice.name =
          some .linesByPrice ∧
        history.catalog.current.index? Index.linesByPrice.name = none) ∧
      history.catalog.current.generation = history.accepted.length ∧
      (Schema.empty.applyAll history.accepted.flatten).2 =
        .ok { history.catalog.current with generation := 0 } ∧
      history.catalog.current.Consistent := by
  intro history
  have hshops : Group.start "twice" .shops = .ok ⟨"twice", .shops, []⟩ := by decide
  have hformed : ∀ changes ∈ shopUpdates, ∀ change ∈ changes, change.Formed := by
    simp only [shopUpdates, List.forall_mem_cons, List.not_mem_nil, false_implies, implies_true,
      and_true, SchemaChange.Formed, true_and]
    exact ⟨⟨Group.formed_shopTables, Index.built_linesByPrice, Table.declared_lines⟩, .start hshops⟩
  exact ⟨hformed, by decide +kernel, ⟨by decide +kernel, by decide +kernel⟩,
    current_of_accepted shopUpdates hformed⟩

end CatalogHistory

end TableGroups
