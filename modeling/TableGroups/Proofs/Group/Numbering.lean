import TableGroups.Proofs.Group.Listing

/-!
# The numbers of the tables of a group

Ordinals number the listing of a group from one, so that the number of a member is its place in the
listing (`Formed.ordinal?_eq_some_iff`).  A listing in pre-order is therefore a numbering in which
parents come before their children and everything that hangs from one table is an interval
(`Formed.isNumbering`).

`Group.listing_of_start` puts together what is known of the listing of a group that was built by
adding tables, whether or not some of them were refused.
-/

namespace TableGroups

/-- In a list without repetitions, what stands in a part of it stands at the places of the part. -/
theorem mem_middle_iff {α : Type} {front middle back : List α} {i : Nat} {x : α}
    (hnodup : (front ++ middle ++ back).Nodup) (hx : (front ++ middle ++ back)[i]? = some x) :
    x ∈ middle ↔ front.length ≤ i ∧ i < front.length + middle.length := by
  constructor
  · intro hmem
    obtain ⟨j, hj, hget⟩ := List.mem_iff_getElem.mp hmem
    have hplace : (front ++ middle ++ back)[front.length + j]? = some x := by
      rw [List.append_assoc, List.getElem?_append_right (Nat.le_add_right _ _),
        Nat.add_sub_cancel_left, List.getElem?_append_left hj, List.getElem?_eq_getElem hj, hget]
    have hi : i < (front ++ middle ++ back).length := (List.getElem?_eq_some_iff.mp hx).1
    have hsame : i = front.length + j := (List.getElem?_inj hi hnodup).mp (hx.trans hplace.symm)
    omega
  · rintro ⟨hfront, hmiddle⟩
    rw [List.append_assoc, List.getElem?_append_right hfront,
      List.getElem?_append_left (by omega)] at hx
    exact List.mem_of_getElem? hx

namespace Group

variable {group : Group} {table other parent : Table} {generation k m : Nat} {name : TableName}

/-- Numbers of the tables of a group: from one on, each for one table, a parent's below those of its
children, and an interval for each table together with all that hangs from it. -/
structure IsNumbering (group : Group) (ordinals : Ordinals) : Prop where
  exists_number : ∀ table ∈ group.tables, ∃ k, 1 ≤ k ∧ k ≤ group.tables.length ∧
    ordinals.ordinal? table.name = some k
  existsUnique_table : ∀ k, 1 ≤ k → k ≤ group.tables.length →
    ∃! table, table ∈ group.tables ∧ ordinals.ordinal? table.name = some k
  exists_table : ∀ name k, ordinals.ordinal? name = some k →
    ∃ table ∈ group.tables, table.name = name
  parent_lt : ∀ table ∈ group.tables, ∀ parent k m, table.parent? = some parent →
    ordinals.ordinal? parent.name = some k → ordinals.ordinal? table.name = some m → k < m
  exists_interval : ∀ table ∈ group.tables, ∀ k, ordinals.ordinal? table.name = some k →
    ∃ size, ∀ other ∈ group.tables, ∀ m, ordinals.ordinal? other.name = some m →
      (table ∈ other.lineage ↔ k ≤ m ∧ m < k + size)

namespace Formed

theorem nodup_names_depthFirst (h : group.Formed) : group.names.Nodup :=
  (h.perm_depthFirst.map _).nodup_iff.mpr h.nodup_names

/-- The number of a member is its place in the listing, counted from one. -/
theorem ordinal?_eq_some_iff (h : group.Formed) (htable : table ∈ group.tables) :
    (Ordinals.ofGroups [group] generation).ordinal? table.name = some k ↔
      ∃ i, group.depthFirst[i]? = some table ∧ k = 1 + i := by
  have hnumber : ∀ i, group.depthFirst[i]? = some table →
      (Ordinals.ofGroups [group] generation).ordinal? table.name = some (1 + i) := by
    intro i hi
    have hlast : ∀ later ∈ ([] : List Group), table.name ∉ later.names := by simp
    exact @Ordinals.ordinal?_ofGroups_of_getElem? [] [] group generation i table
      h.nodup_names_depthFirst hlast hi
  obtain ⟨i, hi⟩ := List.mem_iff_getElem?.mp (h.mem_depthFirst_iff.mpr htable)
  constructor
  · intro hk
    refine ⟨i, hi, Option.some.inj (hk.symm.trans (hnumber i hi))⟩
  · rintro ⟨j, hj, rfl⟩
    exact hnumber j hj

/-- Only members have numbers. -/
theorem exists_of_ordinal? (h : group.Formed)
    (hk : (Ordinals.ofGroups [group] generation).ordinal? name = some k) :
    ∃ table ∈ group.tables, table.name = name := by
  by_contra hnone
  have hother : name ∉ group.names := by
    intro hmem
    obtain ⟨table, htable, hname⟩ := List.mem_map.mp hmem
    exact hnone ⟨table, h.mem_depthFirst_iff.mp htable, hname⟩
  rw [Ordinals.ordinal?_ofGroups_of_forall_notMem (List.forall_mem_singleton.mpr hother)] at hk
  cases hk

/-- A number belongs to one member. -/
theorem eq_of_ordinal?_eq (h : group.Formed) (htable : table ∈ group.tables)
    (hother : other ∈ group.tables)
    (hk : (Ordinals.ofGroups [group] generation).ordinal? table.name = some k)
    (hk' : (Ordinals.ofGroups [group] generation).ordinal? other.name = some k) :
    table = other := by
  obtain ⟨i, hi, rfl⟩ := (h.ordinal?_eq_some_iff htable).mp hk
  obtain ⟨j, hj, hsame⟩ := (h.ordinal?_eq_some_iff hother).mp hk'
  obtain rfl : i = j := Nat.add_left_cancel hsame
  exact Option.some.inj (hi.symm.trans hj)

/-- A table and all that hangs from it are numbered by an interval that begins with the table. -/
theorem exists_interval (h : group.Formed) (htable : table ∈ group.tables)
    (hk : (Ordinals.ofGroups [group] generation).ordinal? table.name = some k) :
    ∃ size, ∀ other ∈ group.tables, ∀ m,
      (Ordinals.ofGroups [group] generation).ordinal? other.name = some m →
        (table ∈ other.lineage ↔ k ≤ m ∧ m < k + size) := by
  obtain ⟨front, block, back, hlisted, hblock⟩ := h.isPreorder.exists_block table htable
  have hnodup := hlisted ▸ h.isPreorder.nodup
  -- the table stands directly behind what comes in front of its block
  have hplace : group.depthFirst[front.length]? = some table := by
    rw [hlisted, List.append_assoc, List.getElem?_append_right (Nat.le_refl _), Nat.sub_self]
    rfl
  have hnumber := (@ordinal?_eq_some_iff _ _ generation _ h htable).mpr ⟨_, hplace, rfl⟩
  obtain rfl : 1 + front.length = k := Option.some.inj (hnumber.symm.trans hk)
  refine ⟨(table :: block).length, fun other hother m hm => ?_⟩
  obtain ⟨i, hi, rfl⟩ := (h.ordinal?_eq_some_iff hother).mp hm
  have hmem : table ∈ other.lineage ↔ other ∈ table :: block := by
    rw [List.mem_cons, hblock]
    by_cases hself : other = table
    · subst hself
      simp only [other.mem_lineage_self, true_or]
    · simp only [hother, hself, ne_eq, not_false_eq_true, true_and, and_true, false_or]
  rw [hmem, mem_middle_iff hnodup (hlisted ▸ hi)]
  omega

/-- **The tables of a group are numbered** in the order of the listing. -/
theorem isNumbering (h : group.Formed) (generation : Nat) :
    group.IsNumbering (.ofGroups [group] generation) where
  exists_number table htable := by
    obtain ⟨i, hi⟩ := List.mem_iff_getElem?.mp (h.mem_depthFirst_iff.mpr htable)
    have hlt : i < group.tables.length := by
      rw [← h.perm_depthFirst.length_eq]
      exact (List.getElem?_eq_some_iff.mp hi).1
    exact ⟨1 + i, by omega, by omega, (h.ordinal?_eq_some_iff htable).mpr ⟨i, hi, rfl⟩⟩
  existsUnique_table k hpos hle := by
    have hlt : k - 1 < group.depthFirst.length := by
      rw [h.perm_depthFirst.length_eq]
      omega
    have hget := List.getElem?_eq_getElem hlt
    have hmember := h.mem_depthFirst_iff.mp (List.getElem_mem hlt)
    have hnumber :
        (Ordinals.ofGroups [group] generation).ordinal? group.depthFirst[k - 1].name = some k :=
      (h.ordinal?_eq_some_iff hmember).mpr ⟨k - 1, hget, by omega⟩
    exact ⟨_, ⟨hmember, hnumber⟩, fun other hother =>
      h.eq_of_ordinal?_eq hother.1 hmember hother.2 hnumber⟩
  exists_table name k hk := h.exists_of_ordinal? hk
  parent_lt table htable parent k m hparent hk hm := by
    have habove := h.parent_mem htable hparent
    obtain ⟨size, hinterval⟩ := h.exists_interval habove hk
    have hle := ((hinterval table htable m hm).mp (Table.mem_lineage_of_parent? hparent)).1
    refine Nat.lt_of_le_of_ne hle ?_
    rintro rfl
    -- a table is not its own parent
    have hself := h.eq_of_ordinal?_eq habove htable hk hm
    have hdepth := Table.depth_of_parent? hparent
    rw [hself] at hdepth
    omega
  exists_interval table htable k hk := h.exists_interval htable hk

end Formed

/-! ### Groups that were built -/

/-- **The listing of a group, and its numbers.**  Whichever tables are offered to a new group, and
whichever of them it refuses: the walk down the tree ends, the listing is a pre-order of the
members, members bring their lineages, another group with the same members is listed alike, and
the numbers are a numbering of the members. -/
theorem listing_of_start {name : String} {root : Table} {fresh : Group}
    (hstart : start name root = .ok fresh) (tables : List Table) :
    let group := fresh.tryTables tables
    (∀ listed, group.Walks group.root listed ↔ listed = group.depthFirst) ∧
      group.IsPreorder group.depthFirst ∧
      (∀ table ∈ group.tables, ∀ above ∈ table.lineage, above ∈ group.tables) ∧
      (∀ name' root' fresh' tables', start name' root' = .ok fresh' →
        (∀ table, table ∈ group.tables ↔ table ∈ (fresh'.tryTables tables').tables) →
        group.depthFirst = (fresh'.tryTables tables').depthFirst) ∧
      ∀ generation, group.IsNumbering (.ofGroups [group] generation) := by
  intro group
  have hformed : group.Formed := (Formed.start hstart).tryTables tables
  refine ⟨fun listed => ?_, hformed.isPreorder, fun table htable above habove => ?_, ?_,
    hformed.isNumbering⟩
  · exact hformed.walks_iff List.mem_cons_self (Nat.le_add_left _ _)
  · exact hformed.mem_of_mem_lineage htable habove
  · intro name' root' fresh' tables' hstart' hmembers
    exact hformed.depthFirst_eq ((Formed.start hstart').tryTables tables') hmembers

/-- Lines are refused before their sales have come, and sales are refused the second time. -/
theorem listing_of_start_shops :
    start "shops" .shops = .ok ⟨"shops", .shops, []⟩ ∧
      (tryTables ⟨"shops", .shops, []⟩ [.lines, .sales, .lines, .sales]) = shopTables ∧
      (∀ listed, shopTables.Walks .shops listed ↔ listed = [.shops, .sales, .lines]) ∧
      shopTables.IsNumbering (.ofGroups [shopTables] 0) := by
  have hstart : start "shops" .shops = .ok ⟨"shops", .shops, []⟩ := by decide
  have hgroup : (tryTables ⟨"shops", .shops, []⟩ [.lines, .sales, .lines, .sales]) = shopTables :=
    by decide +kernel
  have hlisting : shopTables.depthFirst = [.shops, .sales, .lines] := by decide +kernel
  have hall := listing_of_start hstart [.lines, .sales, .lines, .sales]
  rw [hgroup] at hall
  obtain ⟨hwalks, -, -, -, hnumbering⟩ := hall
  refine ⟨hstart, hgroup, fun listed => ?_, hnumbering 0⟩
  rw [← hlisting]
  exact hwalks listed

end Group

end TableGroups
