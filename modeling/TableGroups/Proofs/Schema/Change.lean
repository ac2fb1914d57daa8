import Mathlib.Logic.Basic
import TableGroups.Proofs.ListM
import TableGroups.Proofs.SortedMap
import TableGroups.Schema.Change

/-!
# What changes do to a schema

There are three ways to change a schema, and each of them says under which conditions it succeeds
and what it makes (`addGroup_eq_ok_iff`, `addIndex_eq_ok_iff`, `dropIndex_eq_ok_iff`).  What all
three keep is kept by any list of changes (`KeptByChanges.applyAll`).

No change moves the generation, and an index is registered under its own name.
-/

namespace TableGroups.Schema

variable {schema changed : Schema}

/-! ### The three ways -/

theorem addGroup_eq_ok_iff {group : Group} :
    schema.addGroup group = .ok changed ↔
      schema.group? group.name = none ∧
        (∀ table ∈ group.depthFirst, schema.table? table.name = none) ∧
        changed =
          { schema with
            groups := schema.groups.insert group.name group
            tables := group.depthFirst.foldl (fun acc table => acc.insert table.name table)
              schema.tables } := by
  unfold addGroup
  by_cases hgroup : schema.groups.contains group.name
  · rw [if_pos hgroup]
    rw [SortedMap.contains, Option.isSome_iff_ne_none] at hgroup
    exact ⟨nofun, fun h => absurd h.1 hgroup⟩
  rw [if_neg hgroup]
  rw [SortedMap.contains, Bool.not_eq_true, Option.isSome_eq_false_iff,
    Option.isNone_iff_eq_none] at hgroup
  dsimp only
  cases htaken : group.depthFirst.find? fun table => schema.tables.contains table.name with
  | some taken =>
    have hmem := List.mem_of_find?_eq_some htaken
    have hregistered := List.find?_some htaken
    rw [SortedMap.contains, Option.isSome_iff_ne_none] at hregistered
    exact ⟨nofun, fun h => absurd (h.2.1 taken hmem) hregistered⟩
  | none =>
    have hfree : ∀ table ∈ group.depthFirst, schema.table? table.name = none := by
      intro table hmem
      simpa [SortedMap.contains, table?] using List.find?_eq_none.mp htaken table hmem
    rw [Except.ok.injEq, eq_comm]
    exact ⟨fun h => ⟨hgroup, hfree, h⟩, fun h => h.2.2⟩

theorem addIndex_eq_ok_iff {index : Index} :
    schema.addIndex index = .ok changed ↔
      schema.index? index.name = none ∧
        (∀ table ∈ index.branch, (schema.table? table.name).isSome) ∧
        changed = { schema with indexes := schema.indexes.insert index.name index } := by
  unfold addIndex
  by_cases hindex : schema.indexes.contains index.name
  · rw [if_pos hindex]
    rw [SortedMap.contains, Option.isSome_iff_ne_none] at hindex
    exact ⟨nofun, fun h => absurd h.1 hindex⟩
  rw [if_neg hindex]
  rw [SortedMap.contains, Bool.not_eq_true, Option.isSome_eq_false_iff,
    Option.isNone_iff_eq_none] at hindex
  cases hmissing : index.branch.find? fun table => !schema.tables.contains table.name with
  | some missing =>
    have hmem := List.mem_of_find?_eq_some hmissing
    have hunknown := List.find?_some hmissing
    refine ⟨nofun, fun h => ?_⟩
    have hknown := h.2.1 missing hmem
    simp [SortedMap.contains] at hunknown
    simp [table?, hunknown] at hknown
  | none =>
    have hknown : ∀ table ∈ index.branch, (schema.table? table.name).isSome := by
      intro table hmem
      simpa [SortedMap.contains, table?, Option.isSome_iff_ne_none] using
        List.find?_eq_none.mp hmissing table hmem
    rw [Except.ok.injEq, eq_comm]
    exact ⟨fun h => ⟨hindex, hknown, h⟩, fun h => h.2.2⟩

theorem dropIndex_eq_ok_iff {name : IndexName} {index : Index} :
    schema.dropIndex name = .ok (index, changed) ↔
      schema.index? name = some index ∧
        changed = { schema with indexes := schema.indexes.erase name } := by
  unfold dropIndex index?
  cases schema.indexes.find? name with
  | none => simp
  | some found => simp [eq_comm]

/-! ### Changes one after the other -/

/-- Every way to change a schema keeps the property. -/
structure KeptByChanges (P : Schema → Prop) : Prop where
  addGroup {schema changed : Schema} {group : Group} :
    P schema → schema.addGroup group = .ok changed → P changed
  addIndex {schema changed : Schema} {index : Index} :
    P schema → schema.addIndex index = .ok changed → P changed
  dropIndex {schema changed : Schema} {name : IndexName} {index : Index} :
    P schema → schema.dropIndex name = .ok (index, changed) → P changed

section

variable {P : Schema → Prop}

theorem KeptByChanges.apply (hP : KeptByChanges P) (h : P schema) {change : SchemaChange}
    {dropped : Option Index} (happly : schema.apply change = .ok (dropped, changed)) :
    P changed := by
  cases change with
  | addGroup group =>
    obtain ⟨made, hadd, heq⟩ := map_eq_ok_iff.mp happly
    cases heq
    exact hP.addGroup h hadd
  | addIndex index =>
    obtain ⟨made, hadd, heq⟩ := map_eq_ok_iff.mp happly
    cases heq
    exact hP.addIndex h hadd
  | dropIndex name =>
    obtain ⟨⟨index, made⟩, hdrop, heq⟩ := map_eq_ok_iff.mp happly
    cases heq
    exact hP.dropIndex h hdrop
  | indexColumn table name column =>
    obtain ⟨index, -, hrest⟩ := bind_eq_ok_iff.mp happly
    obtain ⟨made, hadd, heq⟩ := bind_eq_ok_iff.mp hrest
    cases heq
    exact hP.addIndex h hadd

theorem KeptByChanges.applyAll (hP : KeptByChanges P) (h : P schema) {changes : List SchemaChange}
    (happly : (schema.applyAll changes).2 = .ok changed) : P changed := by
  induction changes generalizing schema with
  | nil =>
    cases happly
    exact h
  | cons change rest ih =>
    rw [Schema.applyAll] at happly
    cases hstep : schema.apply change with
    | error e => simp [hstep] at happly
    | ok step =>
      simp only [hstep] at happly
      exact ih (hP.apply h hstep) happly

end

/-! ### What changes keep -/

theorem keptByChanges_generation (generation : Nat) :
    KeptByChanges fun schema => schema.generation = generation where
  addGroup h hadd := by
    obtain ⟨-, -, rfl⟩ := addGroup_eq_ok_iff.mp hadd
    exact h
  addIndex h hadd := by
    obtain ⟨-, -, rfl⟩ := addIndex_eq_ok_iff.mp hadd
    exact h
  dropIndex h hdrop := by
    obtain ⟨-, rfl⟩ := dropIndex_eq_ok_iff.mp hdrop
    exact h

/-- An index is registered under its own name. -/
def RegistersByName (schema : Schema) : Prop :=
  ∀ name index, schema.index? name = some index → index.name = name

theorem registersByName_empty (generation : Nat) :
    RegistersByName ⟨generation, .empty, .empty, .empty⟩ := by
  intro name index h
  cases h

theorem keptByChanges_registersByName : KeptByChanges RegistersByName where
  addGroup h hadd := by
    obtain ⟨-, -, rfl⟩ := addGroup_eq_ok_iff.mp hadd
    exact h
  addIndex h hadd := by
    obtain ⟨-, -, rfl⟩ := addIndex_eq_ok_iff.mp hadd
    intro name found hfound
    simp only [index?, SortedMap.find?_insert] at hfound
    split at hfound
    · next hname =>
      cases hfound
      exact (Std.LawfulEqCmp.eq_of_compare hname).symm
    · exact h name found hfound
  dropIndex h hdrop := by
    obtain ⟨-, rfl⟩ := dropIndex_eq_ok_iff.mp hdrop
    intro name found hfound
    simp only [index?, SortedMap.find?_erase] at hfound
    split at hfound
    · cases hfound
    · exact h name found hfound

end TableGroups.Schema
