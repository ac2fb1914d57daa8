import Mathlib.Data.List.Infix
import Mathlib.Data.List.Sort
import TableGroups.Proofs.Group
import TableGroups.Proofs.ListM
import TableGroups.Proofs.Ordinals

/-!
# The listing of a group

`depthFirst` goes down a tree that is not stored, with a limit to the levels.  Without the limit the
walk is a relation (`Walks`), and it relates every member of a group to exactly one list: the walk
ends, and the limit takes nothing away from it (`Formed.walks_iff`).  For a child is deeper than its
parent, and no member is as deep as the group is large.

What the walk lists is the group in pre-order (`IsPreorder`): each table once, behind each table
the block of all tables that hang from it, and siblings by name (`Formed.isPreorder`).  Nothing of
this depends on the order in which the tables came (`Formed.depthFirst_eq`).
-/

namespace TableGroups

theorem Table.depth_eq_zero_of_parent? {table : Table} (h : table.parent? = none) :
    table.depth = 0 := by
  cases table with
  | root shape => rfl
  | child shape parent pairs => cases h

theorem Table.depth_eq_of_parent?_eq {table other : Table} (h : table.parent? = other.parent?) :
    table.depth = other.depth := by
  cases hparent : other.parent? with
  | none =>
    rw [depth_eq_zero_of_parent? hparent, depth_eq_zero_of_parent? (h.trans hparent)]
  | some parent => rw [depth_of_parent? hparent, depth_of_parent? (h.trans hparent)]

/-- On the way down from a table to a lower one, the parent of the lower one is passed. -/
theorem Table.exists_parent?_above {table other : Table} (h : other ∈ table.lineage)
    (hne : other ≠ table) : ∃ parent, table.parent? = some parent ∧ other ∈ parent.lineage := by
  cases table with
  | root shape => exact absurd (List.mem_singleton.mp h) hne
  | child shape parent pairs =>
    refine ⟨parent, rfl, (List.mem_append.mp h).resolve_right fun hself => ?_⟩
    exact hne (List.mem_singleton.mp hself)

namespace Group

variable {group larger : Group} {table other : Table} {listed : List Table} {levels : Nat}

/-! ### Groups after attempts -/

/-- The group with one more member, or the same group if the table cannot join it. -/
def tryTable (group : Group) (table : Table) : Group :=
  match group.addTable table with
  | .error _ => group
  | .ok larger => larger

/-- The group after tables were offered to it one after the other. -/
def tryTables (group : Group) (tables : List Table) : Group :=
  tables.foldl tryTable group

theorem Formed.tryTable (h : group.Formed) (table : Table) : (group.tryTable table).Formed := by
  unfold Group.tryTable
  split
  · exact h
  · next hadd => exact h.addTable hadd

theorem Formed.tryTables (h : group.Formed) (tables : List Table) :
    (group.tryTables tables).Formed := by
  induction tables generalizing group with
  | nil => exact h
  | cons table rest ih => exact ih (h.tryTable table)

/-! ### The walk without a limit -/

/-- A walk in pre-order that ends: it lists a table, and then what the walks below its children
list, one child after the other. -/
inductive Walks (group : Group) : Table → List Table → Prop where
  | visit {table : Table} {blocks : List (List Table)}
    (h : List.Forall₂ (Walks group) (group.children table.name) blocks) :
    Walks group table (table :: blocks.flatten)

theorem walks_iff_exists :
    group.Walks table listed ↔ ∃ blocks,
      List.Forall₂ group.Walks (group.children table.name) blocks ∧
        listed = table :: blocks.flatten := by
  constructor
  · rintro ⟨hblocks⟩
    exact ⟨_, hblocks, rfl⟩
  · rintro ⟨blocks, hblocks, rfl⟩
    exact .visit hblocks

namespace Formed

/-- **The walk below a member ends**, with the listing that the walk with a limit makes, as soon as
the limit reaches as deep as the group can. -/
theorem walks_iff (h : group.Formed) (htable : table ∈ group.tables)
    (hlevels : group.tables.length ≤ table.depth + levels) :
    group.Walks table listed ↔ listed = group.subtree levels table := by
  induction levels generalizing table listed with
  | zero => exact absurd (h.depth_lt htable) (Nat.not_lt.mpr hlevels)
  | succ levels ih =>
    have hchildren : ∀ child ∈ group.children table.name, ∀ block,
        group.Walks child block ↔ block = group.subtree levels child := by
      intro child hchild block
      obtain ⟨hmember, hparent⟩ := (h.mem_children_iff htable).mp hchild
      have hdepth := Table.depth_of_parent? hparent
      exact ih hmember (by omega)
    simp only [walks_iff_exists, forall₂_iff_eq_map hchildren, exists_eq_left, subtree,
      List.flatMap_def]

/-- Limits that reach deep enough make no difference. -/
theorem subtree_eq (h : group.Formed) (htable : table ∈ group.tables) {levels' : Nat}
    (hlevels : group.tables.length ≤ table.depth + levels)
    (hlevels' : group.tables.length ≤ table.depth + levels') :
    group.subtree levels table = group.subtree levels' table :=
  (h.walks_iff htable hlevels').mp ((h.walks_iff htable hlevels).mpr rfl)

/-! ### Blocks -/

/-- A member and the tables that hang from it, as the walk lists them. -/
theorem mem_block_iff (h : group.Formed) (htable : table ∈ group.tables) :
    other ∈ group.subtree group.tables.length table ↔
      other ∈ group.tables ∧ table ∈ other.lineage := by
  rw [h.mem_subtree_iff htable]
  refine ⟨fun ⟨hother, hlineage, _⟩ => ⟨hother, hlineage⟩,
    fun ⟨hother, hlineage⟩ => ⟨hother, hlineage, ?_⟩⟩
  exact Nat.lt_add_left _ (h.depth_lt hother)

/-- What a walk lists below a table that it comes to stands together. -/
theorem exists_subtree_infix (h : group.Formed) (htable : table ∈ group.tables)
    (hother : other ∈ group.subtree levels table) :
    ∃ left, other.depth + left = table.depth + levels ∧
      group.subtree left other <:+: group.subtree levels table := by
  induction levels generalizing table with
  | zero => cases hother
  | succ levels ih =>
    rw [subtree, List.mem_cons, List.mem_flatMap] at hother
    rcases hother with rfl | ⟨child, hchild, hother⟩
    · exact ⟨levels + 1, rfl, List.infix_rfl⟩
    · obtain ⟨hmember, hparent⟩ := (h.mem_children_iff htable).mp hchild
      have hdepth := Table.depth_of_parent? hparent
      obtain ⟨left, hleft, hinfix⟩ := ih hmember hother
      refine ⟨left, by omega, hinfix.trans ?_⟩
      have hblock : group.subtree levels child <:+:
          (group.children table.name).flatMap (group.subtree levels) := by
        rw [List.flatMap_def]
        exact List.infix_of_mem_flatten (List.mem_map_of_mem hchild)
      rw [subtree]
      exact List.infix_cons hblock

/-- **A member and what hangs from it stand together in the listing.** -/
theorem block_infix (h : group.Formed) (htable : table ∈ group.tables) :
    group.subtree group.tables.length table <:+: group.depthFirst := by
  have hroot : group.root.depth = 0 := Table.depth_eq_zero_of_parent? h.parent?_root
  obtain ⟨left, hleft, hinfix⟩ :=
    h.exists_subtree_infix List.mem_cons_self (h.mem_depthFirst_iff.mpr htable)
  have hlevels : group.subtree group.tables.length table = group.subtree left table :=
    h.subtree_eq htable (Nat.le_add_left _ _) (by omega)
  rw [hlevels]
  exact hinfix

/-! ### Siblings -/

/-- The children of a table ascend by name. -/
theorem pairwise_children (h : group.Formed) (name : TableName) :
    (group.children name).Pairwise fun a b => compare a.name b.name = .lt := by
  have hle : ∀ o : Ordering, (o != .gt) = o.isLE := by decide
  have hsorted : (group.children name).Pairwise fun a b => compare a.name b.name != .gt := by
    refine List.pairwise_mergeSort (fun a b c hab hbc => ?_) (fun a b => ?_) _
    · rw [hle] at hab hbc ⊢
      exact Std.TransCmp.isLE_trans hab hbc
    · have hswap : compare b.name a.name = (compare a.name b.name).swap :=
        Std.OrientedCmp.eq_swap
      rw [hle, hle, hswap]
      cases compare a.name b.name <;> rfl
  have hmember : ∀ child ∈ group.children name, child ∈ group.tables := by
    intro child hchild
    exact List.mem_of_mem_filter (List.mem_mergeSort.mp hchild)
  -- children of one name are one child, and no child is listed twice
  refine ((h.nodup_children name).and hsorted).imp_of_mem fun {a b} ha hb hab => ?_
  rcases hcompare : compare a.name b.name with _ | _ | _
  · rfl
  · have hname : a.name = b.name := Std.LawfulEqCmp.eq_of_compare hcompare
    exact absurd (h.eq_of_name_eq (hmember a ha) (hmember b hb) hname) hab.1
  · rw [hcompare] at hab
    exact absurd hab.2 (by decide)

/-- **Siblings are listed by name.** -/
theorem pairwise_siblings (h : group.Formed) (htable : table ∈ group.tables) :
    (group.subtree levels table).Pairwise fun a b =>
      a.parent? = b.parent? → compare a.name b.name = .lt := by
  induction levels generalizing table with
  | zero => exact .nil
  | succ levels ih =>
    have hchildren : ∀ child ∈ group.children table.name,
        child ∈ group.tables ∧ child.depth = table.depth + 1 := by
      intro child hchild
      obtain ⟨hmember, hparent⟩ := (h.mem_children_iff htable).mp hchild
      exact ⟨hmember, Table.depth_of_parent? hparent⟩
    rw [subtree, List.pairwise_cons, List.pairwise_flatMap]
    refine ⟨fun below hbelow hparents => ?_, fun child hchild => ih (hchildren child hchild).1, ?_⟩
    · -- what hangs from a table is deeper than the table, so it has another parent
      obtain ⟨child, hchild, hbelow⟩ := List.mem_flatMap.mp hbelow
      obtain ⟨hmember, hdepth⟩ := hchildren child hchild
      obtain ⟨-, hlineage, -⟩ := (h.mem_subtree_iff hmember).mp hbelow
      have hle := Table.depth_le_of_mem_lineage hlineage
      have heq := Table.depth_eq_of_parent?_eq hparents
      omega
    · refine (h.pairwise_children table.name).imp_of_mem fun {a b} ha hb hab => ?_
      intro first hfirst second hsecond hparents
      obtain ⟨hmemberA, hdepthA⟩ := hchildren a ha
      obtain ⟨hmemberB, hdepthB⟩ := hchildren b hb
      obtain ⟨-, hlineageA, -⟩ := (h.mem_subtree_iff hmemberA).mp hfirst
      obtain ⟨-, hlineageB, -⟩ := (h.mem_subtree_iff hmemberB).mp hsecond
      have hdepth := Table.depth_eq_of_parent?_eq hparents
      by_cases hself : a = first
      · -- the second is as deep as its ancestor among the children, so it is that child
        subst hself
        have hsame : second = b := Table.eq_of_mem_lineage_of_depth_eq second.mem_lineage_self
          hlineageB (by omega)
        rwa [hsame]
      · -- two children would be in the lineage of one parent
        obtain ⟨parent, hparent, haboveA⟩ := Table.exists_parent?_above hlineageA hself
        have hle := Table.depth_le_of_mem_lineage haboveA
        have hdeeper := Table.depth_of_parent? hparent
        have hother : b ≠ second := by
          rintro rfl
          omega
        obtain ⟨parent', hparent', haboveB⟩ := Table.exists_parent?_above hlineageB hother
        obtain rfl : parent = parent' :=
          Option.some.inj (hparent.symm.trans (hparents.trans hparent'))
        have hsame : a = b := Table.eq_of_mem_lineage_of_depth_eq haboveA haboveB
          (hdepthA.trans hdepthB.symm)
        have hrefl : compare b.name b.name = .eq := Std.ReflCmp.compare_self
        rw [hsame, hrefl] at hab
        cases hab

/-! ### Order of arrival -/

/-- A group with the same members lists the same children. -/
theorem children_eq (h : group.Formed) (hlarger : larger.Formed)
    (hmembers : ∀ table, table ∈ group.tables ↔ table ∈ larger.tables) (name : TableName) :
    group.children name = larger.children name := by
  have hperm : group.tables.Perm larger.tables :=
    (List.perm_ext_iff_of_nodup h.nodup_tables hlarger.nodup_tables).mpr hmembers
  have hchildren : (group.children name).Perm (larger.children name) :=
    (List.mergeSort_perm _ _).trans
      ((hperm.filter _).trans (List.mergeSort_perm _ _).symm)
  refine hchildren.eq_of_pairwise (fun a b _ _ hab hba => ?_) (h.pairwise_children name)
    (hlarger.pairwise_children name)
  rw [Std.OrientedCmp.gt_of_lt hab] at hba
  cases hba

/-- **The listing depends on the members alone**, not on the order in which they came. -/
theorem depthFirst_eq (h : group.Formed) (hlarger : larger.Formed)
    (hmembers : ∀ table, table ∈ group.tables ↔ table ∈ larger.tables) :
    group.depthFirst = larger.depthFirst := by
  have hroot : group.root = larger.root :=
    hlarger.eq_root_of_parent? ((hmembers group.root).mp List.mem_cons_self) h.parent?_root
  have hlength : group.tables.length = larger.tables.length :=
    ((List.perm_ext_iff_of_nodup h.nodup_tables hlarger.nodup_tables).mpr hmembers).length_eq
  have hsubtree : ∀ levels table, group.subtree levels table = larger.subtree levels table := by
    intro levels
    induction levels with
    | zero => exact fun _ => rfl
    | succ levels ih =>
      intro table
      rw [subtree, subtree, h.children_eq hlarger hmembers, funext ih]
  rw [depthFirst, depthFirst, hroot, hlength, hsubtree]

end Formed

/-! ### Pre-order -/

/-- A listing of the tables of a group, each once, in pre-order: directly behind a table come all
tables that hang from it, together, and children of one table come in the order of their names. -/
structure IsPreorder (group : Group) (listed : List Table) : Prop where
  nodup : listed.Nodup
  mem_iff : ∀ table, table ∈ listed ↔ table ∈ group.tables
  exists_block : ∀ table ∈ group.tables, ∃ front block back,
    listed = front ++ table :: block ++ back ∧
      ∀ other, other ∈ block ↔ other ∈ group.tables ∧ table ∈ other.lineage ∧ other ≠ table
  siblings : listed.Pairwise fun a b => a.parent? = b.parent? → compare a.name b.name = .lt

/-- **The traversal lists a group in pre-order.** -/
theorem Formed.isPreorder (h : group.Formed) : group.IsPreorder group.depthFirst where
  nodup := h.nodup_subtree List.mem_cons_self
  mem_iff _ := h.mem_depthFirst_iff
  siblings := h.pairwise_siblings List.mem_cons_self
  exists_block table htable := by
    obtain ⟨front, back, hlisted⟩ := h.block_infix htable
    obtain ⟨block, hblock⟩ : ∃ block, group.subtree group.tables.length table = table :: block :=
      ⟨_, rfl⟩
    have hnodup : (table :: block).Nodup := hblock ▸ h.nodup_subtree htable
    refine ⟨front, block, back, by rw [← hlisted, hblock], fun other => ?_⟩
    have hmem : other ∈ table :: block ↔ other ∈ group.tables ∧ table ∈ other.lineage :=
      hblock ▸ h.mem_block_iff htable
    rw [List.nodup_cons] at hnodup
    constructor
    · intro hother
      obtain ⟨hmember, hlineage⟩ := hmem.mp (List.mem_cons_of_mem _ hother)
      exact ⟨hmember, hlineage, fun hself => hnodup.1 (hself ▸ hother)⟩
    · rintro ⟨hmember, hlineage, hne⟩
      exact (List.mem_cons.mp (hmem.mpr ⟨hmember, hlineage⟩)).resolve_left hne

end Group

end TableGroups
