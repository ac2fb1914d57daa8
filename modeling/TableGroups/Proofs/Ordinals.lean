import Mathlib.Data.List.Basic
import TableGroups.Ordinals
import TableGroups.Proofs.SortedMap

/-!
# The numbers of tables

Groups are numbered one after the other, and each overrides what the tables of its own had before.
So the number of a table depends on the groups that have a table of its name and on no others
(`ordinal?_ofGroups_insert`), and what has a number is a table of some group
(`ordinal?_ofGroups_of_forall_notMem`).
-/

namespace TableGroups

/-- The names of the tables of a group, as often as they occur in it. -/
def Group.names (group : Group) : List TableName :=
  group.depthFirst.map (·.name)

namespace Ordinals

variable {ordinals : Ordinals} {name : TableName}

@[simp] theorem ordinal?_assign (ordinals : Ordinals) (table : TableName) (number : Nat) :
    (ordinals.assign table number).ordinal? name =
      if compare name table = .eq then some number else ordinals.ordinal? name :=
  ordinals.numbers.find?_insert _ _ _

/-! ### Tables in order -/

/-- Give numbers to tables one after the other. -/
def assignAll (ordinals : Ordinals) (tables : List (Table × Nat)) : Ordinals :=
  tables.foldl (fun acc (table, number) => acc.assign table.name number) ordinals

@[simp] theorem generation_assignAll (ordinals : Ordinals) (tables : List (Table × Nat)) :
    (ordinals.assignAll tables).generation = ordinals.generation := by
  induction tables generalizing ordinals with
  | nil => rfl
  | cons entry rest ih => exact ih (ordinals.assign entry.1.name entry.2)

/-- Other tables keep the number that they have. -/
theorem ordinal?_assignAll_of_notMem {tables : List (Table × Nat)}
    (h : name ∉ tables.map (·.1.name)) :
    (ordinals.assignAll tables).ordinal? name = ordinals.ordinal? name := by
  induction tables generalizing ordinals with
  | nil => rfl
  | cons entry rest ih =>
    rw [List.map_cons, List.mem_cons, not_or] at h
    refine (@ih (ordinals.assign entry.1.name entry.2) h.2).trans ?_
    rw [ordinal?_assign, if_neg fun heq => h.1 (Std.LawfulEqCmp.eq_of_compare heq)]

/-- What is given does not depend on what was there before. -/
theorem ordinal?_assignAll_congr {other : Ordinals} {tables : List (Table × Nat)}
    (h : ordinals.ordinal? name = other.ordinal? name) :
    (ordinals.assignAll tables).ordinal? name = (other.assignAll tables).ordinal? name := by
  induction tables generalizing ordinals other with
  | nil => exact h
  | cons entry rest ih =>
    refine @ih (ordinals.assign entry.1.name entry.2) (other.assign entry.1.name entry.2) ?_
    rw [ordinal?_assign, ordinal?_assign, h]

/-- Tables of distinct names are numbered by their places. -/
theorem ordinal?_assignAll_zipIdx {tables : List Table} (hnames : (tables.map (·.name)).Nodup)
    {start i : Nat} {table : Table} (h : tables[i]? = some table) :
    (ordinals.assignAll (tables.zipIdx start)).ordinal? table.name = some (start + i) := by
  induction tables generalizing ordinals start i with
  | nil => cases h
  | cons first rest ih =>
    rw [List.map_cons, List.nodup_cons] at hnames
    rw [List.zipIdx_cons]
    cases i with
    | zero =>
      -- no later table has the name of the first
      cases h
      have hlater : table.name ∉ (rest.zipIdx (start + 1)).map (·.1.name) := by
        intro hmem
        obtain ⟨entry, hentry, hname⟩ := List.mem_map.mp hmem
        exact hnames.1 (hname ▸ List.mem_map_of_mem (List.fst_mem_of_mem_zipIdx hentry))
      refine (ordinal?_assignAll_of_notMem hlater).trans ?_
      rw [ordinal?_assign, if_pos Std.ReflCmp.compare_self, Nat.add_zero]
    | succ i =>
      refine (@ih (ordinals.assign first.name start) hnames.2 (start + 1) i h).trans ?_
      rw [Nat.add_assoc, Nat.add_comm 1 i]

/-! ### Groups in order -/

@[simp] theorem generation_number (ordinals : Ordinals) (group : Group) :
    (ordinals.number group).generation = ordinals.generation :=
  ordinals.generation_assignAll _

theorem map_name_zipIdx_depthFirst (group : Group) (start : Nat) :
    (group.depthFirst.zipIdx start).map (·.1.name) = group.names := by
  rw [Group.names, ← List.zipIdx_map_fst start group.depthFirst, List.map_map, List.zipIdx_map_fst]
  rfl

/-- Numbering a group changes the numbers of its own tables only. -/
theorem ordinal?_number_of_notMem {group : Group} (h : name ∉ group.names) :
    (ordinals.number group).ordinal? name = ordinals.ordinal? name := by
  rw [← map_name_zipIdx_depthFirst group 1] at h
  exact ordinal?_assignAll_of_notMem h

theorem generation_foldl_number (ordinals : Ordinals) (groups : List Group) :
    (groups.foldl number ordinals).generation = ordinals.generation := by
  induction groups generalizing ordinals with
  | nil => rfl
  | cons group rest ih => exact (ih _).trans (ordinals.generation_number group)

@[simp] theorem generation_ofGroups (groups : List Group) (generation : Nat) :
    (ofGroups groups generation).generation = generation :=
  generation_foldl_number _ groups

theorem ordinal?_foldl_number_of_forall_notMem {groups : List Group}
    (h : ∀ group ∈ groups, name ∉ group.names) :
    (groups.foldl number ordinals).ordinal? name = ordinals.ordinal? name := by
  induction groups generalizing ordinals with
  | nil => rfl
  | cons group rest ih =>
    rw [List.forall_mem_cons] at h
    exact (ih h.2).trans (ordinal?_number_of_notMem h.1)

theorem ordinal?_foldl_number_congr {other : Ordinals} {groups : List Group}
    (h : ordinals.ordinal? name = other.ordinal? name) :
    (groups.foldl number ordinals).ordinal? name = (groups.foldl number other).ordinal? name := by
  induction groups generalizing ordinals other with
  | nil => exact h
  | cons group rest ih => exact @ih (ordinals.number group) _ (ordinal?_assignAll_congr h)

/-- A group between others gives numbers to its own tables only. -/
theorem ordinal?_ofGroups_insert {front back : List Group} {group : Group} {generation : Nat}
    (h : name ∉ group.names) :
    (ofGroups (front ++ group :: back) generation).ordinal? name =
      (ofGroups (front ++ back) generation).ordinal? name := by
  rw [ofGroups, ofGroups, List.foldl_append, List.foldl_append, List.foldl_cons]
  exact ordinal?_foldl_number_congr (ordinal?_number_of_notMem h)

/-- What is a table of no group has no number. -/
theorem ordinal?_ofGroups_of_forall_notMem {groups : List Group} {generation : Nat}
    (h : ∀ group ∈ groups, name ∉ group.names) :
    (ofGroups groups generation).ordinal? name = Option.none :=
  ordinal?_foldl_number_of_forall_notMem h

/-- If no later group has a table of the name, a table has the number of its place in its group. -/
theorem ordinal?_ofGroups_of_getElem? {front back : List Group} {group : Group}
    {generation i : Nat} {table : Table} (hnames : group.names.Nodup)
    (hback : ∀ later ∈ back, table.name ∉ later.names) (h : group.depthFirst[i]? = some table) :
    (ofGroups (front ++ group :: back) generation).ordinal? table.name = some (1 + i) := by
  rw [ofGroups, List.foldl_append, List.foldl_cons, ordinal?_foldl_number_of_forall_notMem hback]
  exact ordinal?_assignAll_zipIdx hnames h

/-! ### More numbers -/

/-- The tables that have a number keep it, in the same generation. -/
structure Extends (larger smaller : Ordinals) : Prop where
  generation : larger.generation = smaller.generation
  ordinal? {table : TableName} {number : Nat} :
    smaller.ordinal? table = some number → larger.ordinal? table = some number

theorem Extends.refl (ordinals : Ordinals) : ordinals.Extends ordinals := ⟨rfl, id⟩

theorem Extends.trans {larger between smaller : Ordinals} (h : larger.Extends between)
    (h' : between.Extends smaller) : larger.Extends smaller :=
  ⟨h.generation.trans h'.generation, fun hnumber => h.ordinal? (h'.ordinal? hnumber)⟩

end Ordinals

end TableGroups
