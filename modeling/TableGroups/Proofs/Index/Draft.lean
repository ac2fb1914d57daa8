import Mathlib.Data.List.Nodup
import Mathlib.Data.List.Perm.Subperm
import TableGroups.Index.Draft.Edit
import TableGroups.Proofs.Index.Build

/-!
# Drafts, and the positions of their columns

A draft is begun over a table or a branch and then edited.  `IndexDraft.Written` are the drafts that
come of it, and `IndexDraft.edit_spec` says what an edit can do to the column list: append the
column that it asks for, if there is one and the list is open, or freeze the list.  So a frozen list
is sorted by declared position, and the key columns of a built index ascend
(`Written.pairwise_keyColumns`).

The columns that completing appends have the positions of their places
(`map_position_of_complete`), whatever positions were declared.  Whether all positions ascend, and
whether they are distinct, is therefore a matter of the declared ones
(`Written.declared_positions`): they have to leave no gap if anything is appended.
-/

namespace TableGroups

/-! ### Numbers and their places -/

section Places

variable {ps : List Nat} {m : Nat}

/-- Ascending numbers that are all below their count are the first ones. -/
theorem eq_range_of_pairwise_lt (h : ps.Pairwise (· < ·)) (hlt : ∀ p ∈ ps, p < ps.length) :
    ps = List.range ps.length := by
  have hsubset : ps ⊆ List.range ps.length := fun p hp => List.mem_range.mpr (hlt p hp)
  have hperm : ps.Perm (List.range ps.length) := by
    refine (h.nodup.subperm hsubset).perm_of_length_le ?_
    exact Nat.le_of_eq List.length_range
  exact hperm.eq_of_pairwise (fun a b _ _ hab hba => absurd hba (Nat.lt_asymm hab)) h
    List.pairwise_lt_range

/-- Behind ascending numbers the following places ascend only if there is no gap. -/
theorem pairwise_append_range'_iff (h : ps.Pairwise (· < ·)) :
    (ps ++ List.range' ps.length m).Pairwise (· < ·) ↔ m = 0 ∨ ps = List.range ps.length := by
  constructor
  · intro hall
    rcases Nat.eq_zero_or_pos m with hnone | hsome
    · exact .inl hnone
    refine .inr (eq_range_of_pairwise_lt h fun p hp => ?_)
    have hfirst : ps.length ∈ List.range' ps.length m :=
      List.mem_range'_1.mpr ⟨Nat.le_refl _, by omega⟩
    exact (List.pairwise_append.mp hall).2.2 p hp _ hfirst
  · rintro (rfl | hps)
    · rwa [List.range'_zero, List.append_nil]
    · have hrange : List.range ps.length ++ List.range' ps.length m =
          List.range (ps.length + m) := by
        rw [List.range_eq_range', List.range_eq_range', ← List.range'_append_1, Nat.zero_add]
      rw [hps, List.length_range, hrange]
      exact List.pairwise_lt_range

/-- Distinct numbers stay distinct before the following places if none of them is one of these. -/
theorem nodup_append_range'_iff (h : ps.Nodup) :
    (ps ++ List.range' ps.length m).Nodup ↔ ∀ p ∈ ps, p < ps.length ∨ ps.length + m ≤ p := by
  rw [List.nodup_append]
  constructor
  · rintro ⟨-, -, hne⟩ p hp
    by_contra hplace
    have hmem : p ∈ List.range' ps.length m := List.mem_range'_1.mpr ⟨by omega, by omega⟩
    exact hne p hp p hmem rfl
  · intro hplaces
    refine ⟨h, List.nodup_range', fun p hp q hq hpq => ?_⟩
    have hplace := hplaces p hp
    have hrange := List.mem_range'_1.mp hq
    omega

end Places

/-- The column that an edit asks for.  There is none if a table lacks the column it is asked for. -/
def DraftEdit.column? : DraftEdit → Option IndexColumn
  | .columnNamed table name position direction =>
    (table.columnNamed? name).map fun found => ⟨table.name, found, position, direction⟩
  | .column wanted => some wanted
  | _ => none

namespace IndexDraft

variable {draft edited : IndexDraft} {change : DraftEdit} {index : Index} {branch : List Table}
  {columns all : List IndexColumn} {targets : List ColumnRef}

/-! ### Freezing -/

theorem perm_sortColumns (columns : List IndexColumn) : (sortColumns columns).Perm columns :=
  List.mergeSort_perm _ _

theorem decide_position_le_trans (a b c : IndexColumn)
    (hab : decide (a.position ≤ b.position) = true)
    (hbc : decide (b.position ≤ c.position) = true) :
    decide (a.position ≤ c.position) = true := by
  rw [decide_eq_true_iff] at hab hbc ⊢
  exact Nat.le_trans hab hbc

theorem decide_position_le_total (a b : IndexColumn) :
    (decide (a.position ≤ b.position) || decide (b.position ≤ a.position)) = true := by
  rw [Bool.or_eq_true, decide_eq_true_iff, decide_eq_true_iff]
  exact Nat.le_total _ _

theorem pairwise_sortColumns (columns : List IndexColumn) :
    (sortColumns columns).Pairwise fun a b => a.position ≤ b.position := by
  have hsorted : (sortColumns columns).Pairwise fun a b => decide (a.position ≤ b.position) :=
    List.pairwise_mergeSort decide_position_le_trans decide_position_le_total _
  exact hsorted.imp fun hab => of_decide_eq_true hab

theorem freeze_of_frozen (h : draft.frozen = true) : draft.freeze = draft :=
  if_pos h

theorem keyColumns_freeze_of_open (h : draft.frozen = false) :
    draft.freeze.keyColumns = sortColumns draft.keyColumns := by
  rw [freeze, h]
  rfl

@[simp] theorem frozen_freeze (draft : IndexDraft) : draft.freeze.frozen = true := by
  unfold freeze
  split <;> simp_all

/-- Freezing puts the key columns in order, and that is all. -/
theorem perm_freeze (draft : IndexDraft) : draft.freeze.keyColumns.Perm draft.keyColumns := by
  cases hfrozen : draft.frozen with
  | true => rw [freeze_of_frozen hfrozen]
  | false =>
    rw [keyColumns_freeze_of_open hfrozen]
    exact perm_sortColumns _

/-- Building freezes first, so a draft may as well be frozen before. -/
theorem build_freeze (draft : IndexDraft) : draft.freeze.build = draft.build := by
  rw [build, build, freeze_of_frozen draft.frozen_freeze]

/-! ### Writing -/

/-- A key column is taken as long as the list is open. -/
theorem addColumn_eq_ok_iff {column : IndexColumn} :
    draft.addColumn column = .ok edited ↔
      draft.frozen = false ∧
        edited = { draft with keyColumns := draft.keyColumns ++ [column] } := by
  cases hfrozen : draft.frozen <;> simp [addColumn, hfrozen, eq_comm]

/-- What an edit can do.  Name and leaf stay, and the column list is frozen, or it gets the column
that the edit asks for, for which it has to be open. -/
theorem edit_spec (h : draft.edit change = .ok edited) :
    edited.name = draft.name ∧ edited.leaf = draft.leaf ∧
      ((change = .freeze ∧ edited = draft.freeze) ∨
        (edited.frozen = draft.frozen ∧
          edited.keyColumns = draft.keyColumns ++ change.column?.toList ∧
          (draft.frozen = true → change.column? = none))) := by
  cases change with
  | columnNamed table column position direction =>
    rw [edit, addColumnNamed] at h
    split at h
    · cases h
    next found hfound =>
    obtain ⟨hopen, rfl⟩ := addColumn_eq_ok_iff.mp h
    refine ⟨rfl, rfl, .inr ⟨rfl, ?_, fun hfrozen => ?_⟩⟩
    · rw [DraftEdit.column?, hfound]
      rfl
    · rw [hopen] at hfrozen
      cases hfrozen
  | column column =>
    obtain ⟨hopen, rfl⟩ := addColumn_eq_ok_iff.mp h
    refine ⟨rfl, rfl, .inr ⟨rfl, rfl, fun hfrozen => ?_⟩⟩
    rw [hopen] at hfrozen
    cases hfrozen
  | id number =>
    obtain ⟨id, -, rfl⟩ := map_eq_ok_iff.mp h
    exact ⟨rfl, rfl, .inr ⟨rfl, (List.append_nil _).symm, fun _ => rfl⟩⟩
  | packed word =>
    obtain ⟨id, -, rfl⟩ := map_eq_ok_iff.mp h
    exact ⟨rfl, rfl, .inr ⟨rfl, (List.append_nil _).symm, fun _ => rfl⟩⟩
  | valid valid =>
    obtain rfl := Except.ok.inj h
    exact ⟨rfl, rfl, .inr ⟨rfl, (List.append_nil _).symm, fun _ => rfl⟩⟩
  | treeName treeName =>
    obtain rfl := Except.ok.inj h
    exact ⟨rfl, rfl, .inr ⟨rfl, (List.append_nil _).symm, fun _ => rfl⟩⟩
  | freeze =>
    obtain rfl := Except.ok.inj h
    exact ⟨draft.name_freeze, draft.leaf_freeze, .inl ⟨rfl, rfl⟩⟩

/-- Drafts that were written: begun, and then edited.  An edit that fails leaves the draft as it
was. -/
inductive Written : IndexDraft → Prop where
  | overTable (table : Table) (name : String) (unique : Bool) (constraint : IndexConstraint) :
    Written (overTable table name unique constraint)
  | overBranch (leaf : Table) (name : String) (join : GroupJoin) :
    Written (overBranch leaf name join)
  | edit {draft edited : IndexDraft} {change : DraftEdit} (hdraft : Written draft)
    (h : draft.edit change = .ok edited) : Written edited

namespace Written

/-- A draft is named under its leaf. -/
theorem name_table (h : draft.Written) : draft.name.table = draft.leaf.name := by
  induction h with
  | overTable table name unique constraint => rfl
  | overBranch leaf name join => rfl
  | edit hdraft h ih =>
    obtain ⟨hname, hleaf, -⟩ := edit_spec h
    rw [hname, hleaf, ih]

/-- A frozen column list is sorted. -/
theorem pairwise_of_frozen (h : draft.Written) (hfrozen : draft.frozen = true) :
    draft.keyColumns.Pairwise fun a b => a.position ≤ b.position := by
  induction h with
  | overTable table name unique constraint => cases hfrozen
  | overBranch leaf name join => cases hfrozen
  | @edit draft edited change hdraft h ih =>
    obtain ⟨-, -, ⟨rfl, rfl⟩ | ⟨hsame, hcolumns, hnone⟩⟩ := edit_spec h
    · cases hbefore : draft.frozen with
      | true =>
        rw [freeze_of_frozen hbefore]
        exact ih hbefore
      | false =>
        rw [keyColumns_freeze_of_open hbefore]
        exact pairwise_sortColumns _
    · -- the list was frozen before, and nothing was added to it
      have hbefore : draft.frozen = true := hsame ▸ hfrozen
      rw [hnone hbefore, Option.toList_none, List.append_nil] at hcolumns
      rw [hcolumns]
      exact ih hbefore

/-- Freezing a draft that was written is one more edit. -/
theorem freeze (h : draft.Written) : draft.freeze.Written :=
  @edit draft draft.freeze .freeze h rfl

theorem built (h : draft.Written) (hbuild : draft.build = .ok index) : index.Built :=
  ⟨draft, h.name_table, hbuild⟩

/-- **The key columns of an index ascend by declared position.** -/
theorem pairwise_keyColumns (h : draft.Written) (hbuild : draft.build = .ok index) :
    index.keyColumns.Pairwise fun a b => a.position < b.position := by
  obtain ⟨depths, hdepths, -⟩ := build_spec hbuild
  have hle := h.freeze.pairwise_of_frozen draft.frozen_freeze
  rw [← keyColumns_of_build hbuild] at hle
  have hne := (columnDepths_eq_ok_iff.mp hdepths).1
  exact (hle.and hne).imp fun hab => Nat.lt_of_le_of_ne hab.1 hab.2

end Written

/-! ### Positions -/

/-- The columns that completing appends are numbered by their places. -/
theorem map_position_of_complete {name : IndexName}
    (h : complete name branch targets columns = .ok all) :
    ∃ m, all.map (·.position) = columns.map (·.position) ++ List.range' columns.length m := by
  induction targets generalizing columns with
  | nil =>
    cases h
    exact ⟨0, (List.append_nil _).symm⟩
  | cons target rest ih =>
    rw [complete] at h
    split at h
    · exact ih h
    split at h
    · cases h
    next name' column _ =>
    obtain ⟨m, hm⟩ := ih h
    refine ⟨m + 1, ?_⟩
    rw [hm, List.map_append, List.length_append, List.append_assoc, List.range'_succ]
    rfl

/-- **Positions of the columns of an index.**  Take an index built from a draft that was written.
Its key columns ascend by declared position, and each column behind them has its place as its
position.  So all positions ascend exactly if nothing is appended or the declared positions are the
first ones, and no two columns share a position exactly if no declared position is the place of an
appended column. -/
theorem Written.declared_positions (h : draft.Written) (hbuild : draft.build = .ok index) :
    index.keyColumns.Pairwise (fun a b => a.position < b.position) ∧
    (∀ i column, index.keyColumns.length ≤ i → index.allColumns[i]? = some column →
      column.position = i) ∧
    (index.allColumns.Pairwise (fun a b => a.position < b.position) ↔
      index.allColumns = index.keyColumns ∨
        index.keyColumns.map (·.position) = List.range index.keyColumns.length) ∧
    ((index.allColumns.map (·.position)).Nodup ↔
      ∀ key ∈ index.keyColumns,
        key.position < index.keyColumns.length ∨ index.width ≤ key.position) := by
  have hkeys := h.pairwise_keyColumns hbuild
  have hascending : (index.keyColumns.map (·.position)).Pairwise (· < ·) :=
    List.pairwise_map.mpr hkeys
  obtain ⟨added, hall, -⟩ := (h.built hbuild).allColumns_eq
  obtain ⟨-, -, -, -, -, -, hcomplete⟩ := build_spec hbuild
  obtain ⟨m, hpositions⟩ := map_position_of_complete hcomplete
  have hlength : (index.keyColumns.map (·.position)).length = index.keyColumns.length :=
    List.length_map _
  rw [← hlength] at hpositions
  have hwidth : index.width = index.keyColumns.length + m := by
    have hcount := congrArg List.length hpositions
    rwa [List.length_map, List.length_append, hlength, List.length_range'] at hcount
  refine ⟨hkeys, ?_, ?_, ?_⟩
  · intro i column hi hcolumn
    have hposition : (index.allColumns.map (·.position))[i]? = some column.position := by
      rw [List.getElem?_map, hcolumn]
      rfl
    rw [hpositions, List.getElem?_append_right (by omega), hlength,
      List.getElem?_eq_some_iff] at hposition
    obtain ⟨hlt, hplace⟩ := hposition
    rw [List.getElem_range', Nat.one_mul] at hplace
    omega
  · have hnone : m = 0 ↔ index.allColumns = index.keyColumns := by
      rw [hall, List.append_right_eq_self, ← List.length_eq_zero_iff]
      rw [Index.width, hall, List.length_append] at hwidth
      omega
    rw [← hnone, ← hlength, ← pairwise_append_range'_iff hascending, ← hpositions,
      List.pairwise_map]
  · rw [hpositions, nodup_append_range'_iff hascending.nodup, hwidth, List.forall_mem_map, hlength]

/-- An index over the lines of sales by price, with the price declared at the fourth position. -/
def linesByLatePrice : Index :=
  { Index.linesByPrice with
    keyColumns := [⟨⟨"db", "lines"⟩, ⟨"price", 1, .int, true⟩, 3, .desc⟩]
    allColumns :=
      [⟨⟨"db", "lines"⟩, ⟨"price", 1, .int, true⟩, 3, .desc⟩,
        ⟨⟨"db", "lines"⟩, ⟨"shop", 3, .int, false⟩, 1, .asc⟩,
        ⟨⟨"db", "lines"⟩, ⟨"region", 4, .int, false⟩, 2, .asc⟩,
        ⟨⟨"db", "lines"⟩, ⟨"sale", 2, .int, false⟩, 3, .asc⟩,
        ⟨⟨"db", "lines"⟩, ⟨"line", 0, .int, false⟩, 4, .asc⟩] }

/-- The draft of this index. -/
def latePrice : IndexDraft :=
  { overTable .lines "by_price" false .key with
    keyColumns := [⟨⟨"db", "lines"⟩, ⟨"price", 1, .int, true⟩, 3, .desc⟩] }

theorem written_latePrice : latePrice.Written := by
  have hedit : (overTable .lines "by_price" false .key).edit
      (.columnNamed .lines "price" 3 .desc) = .ok latePrice := by decide +kernel
  exact .edit (.overTable _ _ _ _) hedit

theorem build_latePrice : latePrice.build = .ok linesByLatePrice := by
  decide +kernel

/-- The fourth place is that of an appended column, and it is below no gap. -/
theorem declared_positions_linesByLatePrice :
    latePrice.Written ∧ latePrice.build = .ok linesByLatePrice ∧
      linesByLatePrice.keyColumns.map (·.position) = [3] ∧
      linesByLatePrice.allColumns.map (·.position) = [3, 1, 2, 3, 4] ∧
      ¬ linesByLatePrice.allColumns.Pairwise (fun a b => a.position < b.position) ∧
      ¬ (linesByLatePrice.allColumns.map (·.position)).Nodup := by
  obtain ⟨-, -, hascending, hdistinct⟩ :=
    written_latePrice.declared_positions build_latePrice
  refine ⟨written_latePrice, build_latePrice, rfl, rfl, ?_, ?_⟩
  · rw [hascending]
    decide
  · rw [hdistinct]
    decide

/-- **Positions need not ascend.**  The price is declared at the fourth position and kept first, and
behind it come four columns at the second to the fifth position, one of them at that of the
price. -/
theorem declared_positions_overlap :
    (¬ ∀ (draft : IndexDraft) (index : Index), draft.Written → draft.build = .ok index →
      index.allColumns.Pairwise fun a b => a.position < b.position) ∧
    ¬ ∀ (draft : IndexDraft) (index : Index), draft.Written → draft.build = .ok index →
      (index.allColumns.map (·.position)).Nodup := by
  refine ⟨fun h => ?_, fun h => ?_⟩
  · exact absurd (h _ _ written_latePrice build_latePrice) (by decide)
  · exact absurd (h _ _ written_latePrice build_latePrice) (by decide)

end IndexDraft

end TableGroups
