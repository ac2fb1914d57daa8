import TableGroups.Proofs.Association
import TableGroups.Proofs.Ordinals
import TableGroups.Proofs.Schema.Change

/-!
# The numbers of a schema's tables

The tables of registered groups are registered (`RegistersTables`), so what has a number is
registered.  A group is taken in only if none of its tables is, so the tables that have a number
keep it (`keptByChanges_extends`), and indexes have no part in the numbers at all.
-/

namespace TableGroups.Schema

variable {schema changed : Schema}

@[simp] theorem generation_ordinals (schema : Schema) :
    schema.ordinals.generation = schema.generation :=
  Ordinals.generation_ofGroups _ _

/-- The tables of registered groups are registered. -/
def RegistersTables (schema : Schema) : Prop :=
  ∀ key group, schema.group? key = some group →
    ∀ name ∈ group.names, (schema.table? name).isSome

theorem registersTables_empty (generation : Nat) :
    RegistersTables ⟨generation, .empty, .empty, .empty⟩ := by
  intro key group h
  cases h

/-- Tables are registered by their names, one after the other. -/
theorem isSome_find?_foldl_insert {tables : List Table} {registered : SortedMap TableName Table}
    {name : TableName} :
    ((tables.foldl (fun acc table => acc.insert table.name table) registered).find? name).isSome ↔
      name ∈ tables.map (·.name) ∨ (registered.find? name).isSome := by
  induction tables generalizing registered with
  | nil => simp
  | cons table rest ih =>
    rw [List.foldl_cons, ih, List.map_cons, List.mem_cons, SortedMap.find?_insert]
    by_cases hname : compare name table.name = .eq
    · have heq : name = table.name := Std.LawfulEqCmp.eq_of_compare hname
      simp [heq]
    · have hne : name ≠ table.name := by
        rintro rfl
        exact hname Std.ReflCmp.compare_self
      simp [hname, hne]

theorem keptByChanges_registersTables : KeptByChanges RegistersTables where
  addGroup {schema changed group} h hadd := by
    obtain ⟨-, -, rfl⟩ := addGroup_eq_ok_iff.mp hadd
    intro key found hfound name hname
    refine isSome_find?_foldl_insert.mpr ?_
    simp only [group?, SortedMap.find?_insert] at hfound
    split at hfound
    · cases hfound
      exact .inl hname
    · exact .inr (h key found hfound name hname)
  addIndex h hadd := by
    obtain ⟨-, -, rfl⟩ := addIndex_eq_ok_iff.mp hadd
    exact h
  dropIndex h hdrop := by
    obtain ⟨-, rfl⟩ := dropIndex_eq_ok_iff.mp hdrop
    exact h

/-- What has a number is registered. -/
theorem RegistersTables.isSome_of_ordinal? (h : schema.RegistersTables) {name : TableName}
    {number : Nat} (hnumber : schema.ordinals.ordinal? name = some number) :
    (schema.table? name).isSome := by
  by_contra hfree
  have hnone : schema.ordinals.ordinal? name = none := by
    refine Ordinals.ordinal?_ofGroups_of_forall_notMem fun group hmem hname => hfree ?_
    obtain ⟨key, hkey⟩ := SortedMap.mem_values_iff.mp hmem
    exact h key group hkey name hname
  rw [hnone] at hnumber
  cases hnumber

/-- A new group leaves the numbers that were given. -/
theorem extends_of_addGroup {group : Group} (h : schema.RegistersTables)
    (hadd : schema.addGroup group = .ok changed) : changed.ordinals.Extends schema.ordinals := by
  obtain ⟨hnew, hfree, rfl⟩ := addGroup_eq_ok_iff.mp hadd
  refine ⟨by simp, fun {name number} hnumber => ?_⟩
  have hname : name ∉ group.names := by
    intro hmem
    obtain ⟨table, htable, rfl⟩ := List.mem_map.mp hmem
    have hregistered := h.isSome_of_ordinal? hnumber
    rw [hfree table htable] at hregistered
    cases hregistered
  -- groups are numbered in the order of their names, so the new one may come between others
  obtain ⟨front, back, hvalues, hinserted⟩ := SortedMap.exists_values_insert hnew group
  rw [ordinals, hvalues] at hnumber
  rw [ordinals, hinserted]
  exact (Ordinals.ordinal?_ofGroups_insert hname).trans hnumber

/-- Whatever is changed, the numbers that were given stay. -/
theorem keptByChanges_extends (origin : Schema) :
    KeptByChanges fun schema =>
      schema.RegistersTables ∧ schema.ordinals.Extends origin.ordinals where
  addGroup h hadd :=
    ⟨keptByChanges_registersTables.addGroup h.1 hadd, (extends_of_addGroup h.1 hadd).trans h.2⟩
  addIndex h hadd := by
    obtain ⟨-, -, rfl⟩ := addIndex_eq_ok_iff.mp hadd
    exact h
  dropIndex h hdrop := by
    obtain ⟨-, rfl⟩ := dropIndex_eq_ok_iff.mp hdrop
    exact h

end TableGroups.Schema
