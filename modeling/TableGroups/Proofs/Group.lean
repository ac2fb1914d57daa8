import Mathlib.Data.List.Dedup
import Mathlib.Data.List.Perm.Subperm
import TableGroups.Group
import TableGroups.Proofs.Table.Lineage

/-!
# The tables of a group

A `Group` is a plain record, and only `Group.start` and `Group.addTable` make one whose tables hang
together.  `Group.Formed` are the groups made by them: their members have distinct names, and the
lineage of a member consists of members (`Formed.mem_of_mem_lineage`).

The traversal goes down these lineages.  What it lists below a table are the members that have the
table in their lineage, as far as the levels reach (`Formed.mem_subtree_iff`), and none of them
twice (`Formed.nodup_subtree`).  A lineage without repetitions is not longer than the group, so the
levels reach everywhere and `depthFirst` lists each member once (`Formed.perm_depthFirst`).
-/

namespace TableGroups.Group

variable {group larger : Group} {table other : Table} {name : String}

/-! ### Building a group -/

/-- The groups that can be built: a table without parent, and tables added to it. -/
inductive Formed : Group → Prop where
  | start {name : String} {root : Table} {group : Group} (h : start name root = .ok group) :
    Formed group
  | addTable {group larger : Group} {table : Table} (hgroup : Formed group)
    (h : group.addTable table = .ok larger) : Formed larger

theorem start_eq_ok_iff :
    start name table = .ok group ↔ table.parent? = none ∧ group = ⟨name, table, []⟩ := by
  cases hparent : table.parent? <;> simp [start, hparent, eq_comm]

theorem hasParentOf_iff :
    group.hasParentOf table = true ↔
      ∃ parent, table.parent? = some parent ∧ group.table? parent.name = some parent := by
  cases hparent : table.parent? <;> simp [hasParentOf, hparent]

theorem contains_eq_false_iff {name : TableName} :
    group.contains name = false ↔ ∀ member ∈ group.tables, member.name ≠ name := by
  rw [contains, table?, Option.isSome_eq_false_iff, Option.isNone_iff_eq_none, List.find?_eq_none]
  simp only [beq_iff_eq, ne_eq]

/-- A table is added exactly if its name is new and its parent is a member. -/
theorem addTable_eq_ok_iff :
    group.addTable table = .ok larger ↔
      (∀ member ∈ group.tables, member.name ≠ table.name) ∧
        (∃ parent, table.parent? = some parent ∧ group.table? parent.name = some parent) ∧
          larger = { group with added := group.added ++ [table] } := by
  rw [← contains_eq_false_iff, ← hasParentOf_iff]
  cases hname : group.contains table.name <;> cases hparent : group.hasParentOf table <;>
    simp [addTable, hname, hparent, eq_comm]

theorem mem_of_table?_eq_some {name : TableName} (h : group.table? name = some table) :
    table ∈ group.tables :=
  List.mem_of_find?_eq_some h

namespace Formed

theorem parent?_root (h : group.Formed) : group.root.parent? = none := by
  induction h with
  | start h =>
    obtain ⟨hroot, rfl⟩ := start_eq_ok_iff.mp h
    exact hroot
  | addTable hgroup h ih =>
    obtain ⟨-, -, rfl⟩ := addTable_eq_ok_iff.mp h
    exact ih

theorem nodup_names (h : group.Formed) : (group.tables.map (·.name)).Nodup := by
  induction h with
  | start h =>
    obtain ⟨-, rfl⟩ := start_eq_ok_iff.mp h
    exact List.nodup_singleton _
  | @addTable group larger table hgroup h ih =>
    obtain ⟨hnew, -, rfl⟩ := addTable_eq_ok_iff.mp h
    have htables : Group.tables { group with added := group.added ++ [table] } =
        group.tables ++ [table] := rfl
    rw [htables, List.map_append, List.map_singleton, List.nodup_append]
    refine ⟨ih, List.nodup_singleton _, ?_⟩
    intro name hname last hlast
    obtain ⟨member, hmember, rfl⟩ := List.mem_map.mp hname
    obtain rfl := List.mem_singleton.mp hlast
    exact hnew member hmember

theorem nodup_tables (h : group.Formed) : group.tables.Nodup :=
  .of_map (·.name) h.nodup_names

/-- A member is known by its name. -/
theorem eq_of_name_eq (h : group.Formed) (htable : table ∈ group.tables)
    (hother : other ∈ group.tables) (hname : table.name = other.name) : table = other :=
  List.inj_on_of_nodup_map h.nodup_names htable hother hname

/-- Every table but the root hangs from a member. -/
theorem exists_parent_of_mem_added (h : group.Formed) (htable : table ∈ group.added) :
    ∃ parent ∈ group.tables, table.parent? = some parent := by
  induction h with
  | start h =>
    obtain ⟨-, rfl⟩ := start_eq_ok_iff.mp h
    cases htable
  | addTable hgroup h ih =>
    obtain ⟨-, ⟨parent, hparent, hmember⟩, rfl⟩ := addTable_eq_ok_iff.mp h
    rcases List.mem_append.mp htable with htable | htable
    · obtain ⟨above, habove, hparent⟩ := ih htable
      exact ⟨above, List.mem_append_left _ habove, hparent⟩
    · obtain rfl := List.mem_singleton.mp htable
      exact ⟨parent, List.mem_append_left _ (mem_of_table?_eq_some hmember), hparent⟩

theorem parent_mem (h : group.Formed) (htable : table ∈ group.tables)
    (hparent : table.parent? = some other) : other ∈ group.tables := by
  rcases List.mem_cons.mp htable with rfl | htable
  · cases h.parent?_root.symm.trans hparent
  · obtain ⟨parent, hmember, hparent'⟩ := h.exists_parent_of_mem_added htable
    cases hparent.symm.trans hparent'
    exact hmember

/-- The only member without parent is the root. -/
theorem eq_root_of_parent? (h : group.Formed) (htable : table ∈ group.tables)
    (hparent : table.parent? = none) : table = group.root := by
  rcases List.mem_cons.mp htable with rfl | htable
  · rfl
  · obtain ⟨parent, -, hparent'⟩ := h.exists_parent_of_mem_added htable
    cases hparent.symm.trans hparent'

/-- **A group has the lineages of its members.** -/
theorem mem_of_mem_lineage (h : group.Formed) (htable : table ∈ group.tables)
    (hother : other ∈ table.lineage) : other ∈ group.tables := by
  induction table with
  | root shape =>
    obtain rfl := List.mem_singleton.mp hother
    exact htable
  | child shape parent pairs ih =>
    rw [Table.lineage, List.mem_append] at hother
    rcases hother with hother | hother
    · exact ih (h.parent_mem htable rfl) hother
    · obtain rfl := List.mem_singleton.mp hother
      exact htable

/-- All members hang from the root. -/
theorem root_mem_lineage (h : group.Formed) (htable : table ∈ group.tables) :
    group.root ∈ table.lineage := by
  induction table with
  | root shape =>
    rw [h.eq_root_of_parent? htable rfl]
    exact Table.mem_lineage_self _
  | child shape parent pairs ih =>
    exact List.mem_append_left _ (ih (h.parent_mem htable rfl))

/-- A member is less deep than the group is large. -/
theorem depth_lt (h : group.Formed) (htable : table ∈ group.tables) :
    table.depth < group.tables.length := by
  have hsubperm := table.nodup_lineage.subperm fun other hother =>
    h.mem_of_mem_lineage htable hother
  have hlength := hsubperm.length_le
  rw [Table.length_lineage] at hlength
  exact hlength

/-! ### The traversal -/

theorem mem_children_iff (h : group.Formed) (htable : table ∈ group.tables) :
    other ∈ group.children table.name ↔ other ∈ group.tables ∧ other.parent? = some table := by
  simp only [children, List.mem_mergeSort, List.mem_filter, beq_iff_eq, Option.map_eq_some_iff]
  constructor
  · rintro ⟨hother, parent, hparent, hname⟩
    rw [← h.eq_of_name_eq (h.parent_mem hother hparent) htable hname]
    exact ⟨hother, hparent⟩
  · rintro ⟨hother, hparent⟩
    exact ⟨hother, table, hparent, rfl⟩

theorem nodup_children (h : group.Formed) (name : TableName) : (group.children name).Nodup :=
  (List.mergeSort_perm _ _).nodup_iff.mpr (h.nodup_tables.filter _)

/-- Below a table are the members that have it in their lineage, as far as the levels reach. -/
theorem mem_subtree_iff (h : group.Formed) {levels : Nat} (htable : table ∈ group.tables) :
    other ∈ group.subtree levels table ↔
      other ∈ group.tables ∧ table ∈ other.lineage ∧ other.depth < table.depth + levels := by
  induction levels generalizing table with
  | zero =>
    simp only [subtree, List.not_mem_nil, false_iff, not_and, Nat.not_lt]
    intro _ hlineage
    exact Table.depth_le_of_mem_lineage hlineage
  | succ levels ih =>
    rw [subtree, List.mem_cons, List.mem_flatMap]
    constructor
    · rintro (rfl | ⟨child, hchild, hother⟩)
      · exact ⟨htable, other.mem_lineage_self, by omega⟩
      · obtain ⟨hchild, hparent⟩ := (h.mem_children_iff htable).mp hchild
        obtain ⟨hother, hlineage, hdepth⟩ := (ih hchild).mp hother
        rw [Table.depth_of_parent? hparent] at hdepth
        exact ⟨hother, Table.mem_lineage_trans (Table.mem_lineage_of_parent? hparent) hlineage,
          by omega⟩
    · rintro ⟨hother, hlineage, hdepth⟩
      by_cases heq : table = other
      · exact .inl heq.symm
      · -- the lineage of the other table goes through a child
        obtain ⟨child, hchild, hparent⟩ := Table.exists_parent?_of_mem_lineage hlineage heq
        have hmember := h.mem_of_mem_lineage hother hchild
        refine .inr ⟨child, (h.mem_children_iff htable).mpr ⟨hmember, hparent⟩,
          (ih hmember).mpr ⟨hother, hchild, ?_⟩⟩
        rw [Table.depth_of_parent? hparent]
        omega

theorem nodup_subtree (h : group.Formed) {levels : Nat} (htable : table ∈ group.tables) :
    (group.subtree levels table).Nodup := by
  induction levels generalizing table with
  | zero => exact List.nodup_nil
  | succ levels ih =>
    have hchildren {child : Table} (hchild : child ∈ group.children table.name) :
        child ∈ group.tables ∧ child.depth = table.depth + 1 := by
      obtain ⟨hmember, hparent⟩ := (h.mem_children_iff htable).mp hchild
      exact ⟨hmember, Table.depth_of_parent? hparent⟩
    rw [subtree, List.nodup_cons, List.nodup_flatMap]
    refine ⟨fun hmem => ?_, fun child hchild => ih (hchildren hchild).1, ?_⟩
    · -- a table below a child is deeper than the table itself
      obtain ⟨child, hchild, hbelow⟩ := List.mem_flatMap.mp hmem
      obtain ⟨hmember, hdepth⟩ := hchildren hchild
      obtain ⟨-, hlineage, -⟩ := (h.mem_subtree_iff hmember).mp hbelow
      have hle := Table.depth_le_of_mem_lineage hlineage
      omega
    · -- no lineage goes through two children
      refine (h.nodup_children table.name).pairwise_of_forall_ne ?_
      intro first hfirst second hsecond hne other hother hother'
      obtain ⟨hfirst, hfirstDepth⟩ := hchildren hfirst
      obtain ⟨hsecond, hsecondDepth⟩ := hchildren hsecond
      obtain ⟨-, hlineage, -⟩ := (h.mem_subtree_iff hfirst).mp hother
      obtain ⟨-, hlineage', -⟩ := (h.mem_subtree_iff hsecond).mp hother'
      exact hne (Table.eq_of_mem_lineage_of_depth_eq hlineage hlineage'
        (hfirstDepth.trans hsecondDepth.symm))

theorem mem_depthFirst_iff (h : group.Formed) :
    table ∈ group.depthFirst ↔ table ∈ group.tables := by
  rw [depthFirst, h.mem_subtree_iff List.mem_cons_self]
  refine ⟨And.left, fun htable => ⟨htable, h.root_mem_lineage htable, ?_⟩⟩
  exact Nat.lt_add_left _ (h.depth_lt htable)

/-- **The traversal lists each table of the group once.** -/
theorem perm_depthFirst (h : group.Formed) : group.depthFirst.Perm group.tables :=
  (List.perm_ext_iff_of_nodup (h.nodup_subtree List.mem_cons_self) h.nodup_tables).mpr
    fun _ => h.mem_depthFirst_iff

end Formed

/-! ### A sample group -/

/-- Shops with their sales and the lines of these. -/
def shopTables : Group := ⟨"shops", .shops, [.sales, .lines]⟩

theorem formed_shopTables : shopTables.Formed := by
  have hshops : start "shops" .shops = .ok ⟨"shops", .shops, []⟩ := by decide
  have hsales : Group.addTable ⟨"shops", .shops, []⟩ .sales = .ok ⟨"shops", .shops, [.sales]⟩ := by
    decide +kernel
  have hlines : Group.addTable ⟨"shops", .shops, [.sales]⟩ .lines = .ok shopTables := by
    decide +kernel
  exact .addTable (.addTable (.start hshops) hsales) hlines

end TableGroups.Group
