import Mathlib.Data.List.Forall2
import TableGroups.Proofs.Association
import TableGroups.Proofs.HKey.Order
import TableGroups.Proofs.Index.Draft
import TableGroups.Proofs.Table.Linkage

/-!
# Completing the columns of an index

A draft is `Valid` if its key columns are columns of the tables that it may draw on, at distinct
positions.  This is what building checks (`valid_iff`), and what it then spans is the lineage from
the first table that a key column belongs to (`drop_lineage_eq_branch`).

Building succeeds exactly if each column of the leaf's hierarchical keys is held somewhere in the
branch (`complete_eq_error_iff`).  The search is greedy and goes over the columns that it appends
itself, but this does not matter: a column can only be carried if it is held, and if it is held it
can be appended.

What is appended is needed and new.  No appended column is an earlier one over again
(`nodup_ref_of_complete`), since the earlier one would have carried what the new one is appended
for; and as earlier columns keep their places, the recipe takes from each appended column what it
was appended for (`Index.Built.exists_position_eq`).

* `Written.completion`: all of this for a draft that was written, with the associations of the
  index under any ordinals.
-/

namespace TableGroups

namespace IndexDraft

/-! ### Validation -/

/-- The tables that a draft may draw its key columns from. -/
def reach (draft : IndexDraft) : List Table :=
  match draft.span with
  | .table => [draft.leaf]
  | .group _ => draft.leaf.lineage

/-- The draft passes validation: it has key columns, no two of them at one position, and each is a
column of a table that it may draw on. -/
structure Valid (draft : IndexDraft) : Prop where
  ne_nil : draft.keyColumns ≠ []
  positions : draft.keyColumns.Pairwise fun a b => a.position ≠ b.position
  placed : ∀ column ∈ draft.keyColumns, column.Placed draft.reach

/-- The tables that an index of the draft spans: the lineage of the leaf without the tables on top
that no key column belongs to. -/
def branch (draft : IndexDraft) : List Table :=
  draft.leaf.lineage.dropWhile fun table => draft.keyColumns.all (·.table != table.name)

variable {draft : IndexDraft} {column : IndexColumn} {depths : List Nat}

instance (tables : List Table) (column : IndexColumn) : Decidable (column.Placed tables) :=
  inferInstanceAs (Decidable (∃ table ∈ tables, table.name = column.table ∧
    table.column? column.column.position = some column.column))

/-- Key columns are looked for where they belong. -/
theorem exists_homeOf?_iff (hnames : (draft.leaf.lineage.map (·.name)).Nodup) :
    (∃ depth table, draft.homeOf? column = some (table, depth) ∧
      table.column? column.column.position = some column.column) ↔ column.Placed draft.reach := by
  constructor
  · rintro ⟨depth, table, hhome, hcolumn⟩
    obtain ⟨hlineage, hname⟩ := getElem?_lineage_of_homeOf? hhome
    refine ⟨table, ?_, hname, hcolumn⟩
    unfold reach
    split
    · next hspan =>
      rw [depth_of_homeOf?_of_table hspan hhome, Table.getElem?_lineage_depth] at hlineage
      exact List.mem_singleton.mpr (Option.some.inj hlineage).symm
    · exact List.mem_of_getElem? hlineage
  · rintro ⟨table, htable, hname, hcolumn⟩
    unfold reach at htable
    cases hspan : draft.span with
    | table =>
      rw [hspan] at htable
      obtain rfl := List.mem_singleton.mp htable
      refine ⟨draft.leaf.depth, draft.leaf, ?_, hcolumn⟩
      rw [homeOf?, hspan]
      exact if_pos hname.symm
    | group join =>
      rw [hspan] at htable
      obtain ⟨i, hi⟩ := List.mem_iff_getElem?.mp htable
      have hfound : (draft.leaf.lineage.zipIdx.find? (·.1.name == column.table)).isSome := by
        refine List.find?_isSome.mpr ⟨(table, i), ?_, beq_iff_eq.mpr hname⟩
        exact List.mem_zipIdx_iff_getElem?.mpr hi
      obtain ⟨⟨other, depth⟩, hother⟩ := Option.isSome_iff_exists.mp hfound
      have hhome : draft.homeOf? column = some (other, depth) := by
        rw [homeOf?, hspan]
        exact hother
      -- no other table of the lineage has the name
      obtain ⟨hlineage, hsame⟩ := getElem?_lineage_of_homeOf? hhome
      obtain rfl : table = other := List.inj_on_of_nodup_map hnames htable
        (List.mem_of_getElem? hlineage) (hname.trans hsame.symm)
      exact ⟨depth, table, hhome, hcolumn⟩

theorem reach_freeze (draft : IndexDraft) : draft.freeze.reach = draft.reach := by
  rw [reach, reach, span_freeze, leaf_freeze]

/-- **Valid drafts are those that pass validation.** -/
theorem valid_iff (hnames : (draft.leaf.lineage.map (·.name)).Nodup) :
    draft.Valid ↔ draft.freeze.keyColumns ≠ [] ∧
      ∃ depths, draft.freeze.columnDepths [] draft.freeze.keyColumns = .ok depths := by
  have hperm := draft.perm_freeze
  have hhome {column : IndexColumn} :=
    @exists_homeOf?_iff draft.freeze column (draft.leaf_freeze.symm ▸ hnames)
  rw [reach_freeze] at hhome
  simp only [columnDepths_eq_ok_iff, exists_and_left, exists_forall₂_iff, hhome,
    List.not_mem_nil, false_implies, implies_true, true_and]
  constructor
  · intro h
    refine ⟨fun hnil => h.ne_nil (List.nil_perm.mp (hnil ▸ hperm)), ?_, fun column hcolumn => ?_⟩
    · exact (hperm.pairwise_iff fun hab => hab.symm).mpr h.positions
    · exact h.placed column (hperm.mem_iff.mp hcolumn)
  · rintro ⟨hkeys, hpositions, hplaced⟩
    refine ⟨fun hnil => hkeys (List.perm_nil.mp (hnil ▸ hperm)), ?_, fun column hcolumn => ?_⟩
    · exact (hperm.pairwise_iff fun hab => hab.symm).mp hpositions
    · exact hplaced column (hperm.mem_iff.mpr hcolumn)

theorem foldl_min_eq_or_mem {start : Nat} :
    depths.foldl min start = start ∨ depths.foldl min start ∈ depths := by
  induction depths generalizing start with
  | nil => exact .inl rfl
  | cons depth rest ih =>
    rw [List.foldl_cons, List.mem_cons]
    rcases @ih (min start depth) with hmin | hrest
    · rw [hmin]
      omega
    · exact .inr (.inr hrest)

/-- The first table of the branch is the one at the least depth that was found. -/
theorem drop_lineage_eq_branch (hnames : (draft.leaf.lineage.map (·.name)).Nodup)
    (hkeys : draft.freeze.keyColumns ≠ [])
    (h : draft.freeze.columnDepths [] draft.freeze.keyColumns = .ok depths) :
    draft.leaf.lineage.drop (depths.foldl min draft.leaf.depth) = draft.branch := by
  have hhomes : List.Forall₂ (fun column depth => ∃ hlt : depth < draft.leaf.lineage.length,
      draft.leaf.lineage[depth].name = column.table) draft.freeze.keyColumns depths := by
    refine (columnDepths_spec h).imp fun column depth ⟨table, hhome, _⟩ => ?_
    obtain ⟨hlineage, hname⟩ := getElem?_lineage_of_homeOf? hhome
    rw [leaf_freeze] at hlineage
    obtain ⟨hlt, rfl⟩ := List.getElem?_eq_some_iff.mp hlineage
    exact ⟨hlt, hname⟩
  obtain ⟨hle, hmin⟩ :=
    le_foldl_min_iff.mp (Nat.le_refl (depths.foldl min draft.leaf.depth))
  have hleast : depths.foldl min draft.leaf.depth ∈ depths := by
    rcases @foldl_min_eq_or_mem depths draft.leaf.depth with hleaf | hmem
    · -- then the depth of any key column is that of the leaf
      obtain ⟨column, hcolumn⟩ := List.exists_mem_of_ne_nil _ hkeys
      obtain ⟨depth, hdepth, hlt, -⟩ := exists_of_mem_left hhomes hcolumn
      have hge := hmin depth hdepth
      rw [Table.length_lineage] at hlt
      have hsame : depths.foldl min draft.leaf.depth = depth := by omega
      rwa [hsame]
    · exact hmem
  obtain ⟨key, hkey, hlt, hname⟩ := exists_of_mem_right hhomes hleast
  rw [branch, List.dropWhile_eq_drop_findIdx_not]
  congr 1
  refine ((List.findIdx_eq hlt).mpr ⟨?_, fun i hi => ?_⟩).symm
  · rw [Bool.not_eq_true', List.all_eq_false]
    refine ⟨key, draft.perm_freeze.mem_iff.mp hkey, ?_⟩
    simp [hname]
  · -- a key column of a table above would have been found at a lesser depth
    rw [Bool.not_eq_false', List.all_eq_true]
    intro column hcolumn
    obtain ⟨depth, hdepth, hlt', hname'⟩ :=
      exists_of_mem_left hhomes (draft.perm_freeze.mem_iff.mpr hcolumn)
    rw [bne_iff_ne]
    intro hsame
    have hi' : i < draft.leaf.lineage.length := Nat.lt_trans hi hlt
    have hnames' : (draft.leaf.lineage.map (·.name))[i]? =
        (draft.leaf.lineage.map (·.name))[depth]? := by
      rw [List.getElem?_map, List.getElem?_map, List.getElem?_eq_getElem hi',
        List.getElem?_eq_getElem hlt', Option.map_some, Option.map_some, hname', hsame]
    have hplace : i = depth := (List.getElem?_inj (by rwa [List.length_map]) hnames).mp hnames'
    have hge := hmin depth hdepth
    omega

end IndexDraft

variable {branch : List Table} {columns all : List IndexColumn} {column : IndexColumn}
  {target : ColumnRef} {targets : List ColumnRef}

/-! ### Columns that are held -/

/-- Some table of the branch has a column that holds the value of this one. -/
def ColumnRef.HeldIn (branch : List Table) (target : ColumnRef) : Prop :=
  ∃ table ∈ branch, (table.localEquivalent? target).isSome

instance (branch : List Table) : DecidablePred (ColumnRef.HeldIn branch) := fun target =>
  inferInstanceAs (Decidable (∃ table ∈ branch, (table.localEquivalent? target).isSome))

/-- The column of a table that an index column is. -/
def IndexColumn.ref (column : IndexColumn) : ColumnRef :=
  ⟨column.table, column.column.position⟩

/-- Index columns that are one column of a table carry the same. -/
theorem IndexColumn.carries_of_ref_eq {other : IndexColumn} (h : column.ref = other.ref)
    (hcarries : column.carries branch target) : other.carries branch target := by
  obtain ⟨table, hfound, hequivalent⟩ := carries_iff.mp hcarries
  obtain ⟨htable, hposition⟩ := ColumnRef.mk.inj h
  rw [htable] at hfound
  exact carries_iff.mpr ⟨table, hfound, hequivalent.trans (congrArg some hposition)⟩

/-- What is carried is held. -/
theorem ColumnRef.heldIn_of_carries (h : column.carries branch target) : target.HeldIn branch := by
  obtain ⟨table, hfound, hequivalent⟩ := IndexColumn.carries_iff.mp h
  exact ⟨table, List.mem_of_find?_eq_some hfound, Option.isSome_of_eq_some hequivalent⟩

namespace IndexDraft

variable {draft : IndexDraft} {index : Index} {name : IndexName} {e : IndexError}

theorem isSome_supplier?_iff (hsound : ∀ table ∈ branch, table.Sound) :
    (supplier? branch target).isSome ↔ target.HeldIn branch := by
  rw [supplier?, List.findSome?_isSome_iff]
  refine exists_congr fun table => and_congr_right fun htable => ?_
  rw [Option.isSome_map]
  cases hequivalent : table.localEquivalent? target with
  | none => rfl
  | some p =>
    have hlt := (hsound table htable).lt_of_localEquivalent? hequivalent
    simp only [Option.bind_some, Table.column?, List.getElem?_eq_getElem hlt, Option.isSome_some]

/-- Completing fails for a column that nothing holds. -/
theorem complete_cons_of_not_heldIn (hsound : ∀ table ∈ branch, table.Sound)
    (h : ¬ target.HeldIn branch) :
    complete name branch (target :: targets) columns =
      .error (.hkeyColumnUnavailable name target) := by
  have hcarried : (sourcePosition? branch columns target).isSome = false := by
    rw [← Bool.not_eq_true, isSome_sourcePosition?_iff]
    rintro ⟨column, -, hcarries⟩
    exact h (ColumnRef.heldIn_of_carries hcarries)
  have hsupplier : supplier? branch target = none := by
    rwa [← Option.not_isSome_iff_eq_none, isSome_supplier?_iff hsound]
  rw [complete, hcarried, hsupplier]
  rfl

/-- Completing goes on behind a column that is held. -/
theorem exists_complete_cons_eq (hsound : ∀ table ∈ branch, table.Sound)
    (h : target.HeldIn branch) :
    ∃ more, complete name branch (target :: targets) columns =
      complete name branch targets more := by
  rw [complete]
  split
  · exact ⟨columns, rfl⟩
  · obtain ⟨supplied, hsupplied⟩ :=
      Option.isSome_iff_exists.mp ((isSome_supplier?_iff hsound).mpr h)
    rw [hsupplied]
    exact ⟨_, rfl⟩

/-- **Completing fails for the first column that nothing holds**, whatever it has appended until
then, and for nothing else. -/
theorem complete_eq_error_iff (hsound : ∀ table ∈ branch, table.Sound) :
    complete name branch targets columns = .error e ↔
      ∃ target, FirstIn (fun target => ¬ target.HeldIn branch) targets target ∧
        e = .hkeyColumnUnavailable name target := by
  induction targets generalizing columns with
  | nil => simp [complete, FirstIn]
  | cons target rest ih =>
    by_cases hheld : target.HeldIn branch
    · obtain ⟨more, hmore⟩ := @exists_complete_cons_eq branch columns target rest name hsound hheld
      rw [hmore, ih]
      simp [firstIn_cons_iff, hheld]
    · rw [complete_cons_of_not_heldIn hsound hheld]
      simp [firstIn_cons_iff, hheld, eq_comm]

theorem exists_complete_iff (hsound : ∀ table ∈ branch, table.Sound) :
    (∃ all, complete name branch targets columns = .ok all) ↔
      ∀ target ∈ targets, target.HeldIn branch := by
  have hfails : (∃ e, complete name branch targets columns = .error e) ↔
      ∃ target ∈ targets, ¬ target.HeldIn branch := by
    rw [← exists_firstIn_iff]
    simp only [complete_eq_error_iff hsound]
    exact ⟨fun ⟨_, target, hfirst, _⟩ => ⟨target, hfirst⟩,
      fun ⟨target, hfirst⟩ => ⟨_, target, hfirst, rfl⟩⟩
  rw [exists_eq_ok_iff, hfails]
  simp only [not_exists, not_and, not_not]

/-! ### What is appended -/

/-- No appended column is an earlier column over again. -/
theorem nodup_ref_of_complete (hsound : ∀ table ∈ branch, table.Sound)
    (hnames : (branch.map (·.name)).Nodup)
    (h : complete name branch targets columns = .ok all) :
    ∃ added, all = columns ++ added ∧ (added.map (·.ref)).Nodup ∧
      ∀ column ∈ added, ∀ earlier ∈ columns, earlier.ref ≠ column.ref := by
  induction targets generalizing columns with
  | nil =>
    cases h
    exact ⟨[], (List.append_nil _).symm, List.nodup_nil, by simp⟩
  | cons target rest ih =>
    rw [complete] at h
    split at h
    · exact ih h
    next hmissing =>
    split at h
    · cases h
    next name' found hsupplier =>
    obtain ⟨added, rfl, hnodup, hnew⟩ := ih h
    -- an earlier column of the same table column would have carried the target
    have hfirst : ∀ earlier ∈ columns,
        earlier.ref ≠ (IndexColumn.mk name' found columns.length .asc).ref := by
      intro earlier hearlier hsame
      have hcarries := carries_of_supplier? hsound hnames hsupplier columns.length .asc
      exact hmissing (isSome_sourcePosition?_iff.mpr
        ⟨earlier, hearlier, IndexColumn.carries_of_ref_eq hsame.symm hcarries⟩)
    refine ⟨⟨name', found, columns.length, .asc⟩ :: added, by simp, ?_, ?_⟩
    · rw [List.map_cons, List.nodup_cons]
      refine ⟨fun hmem => ?_, hnodup⟩
      obtain ⟨column, hcolumn, hsame⟩ := List.mem_map.mp hmem
      exact hnew column hcolumn _ (List.mem_append_right _ (List.mem_singleton_self _)) hsame.symm
    · rw [List.forall_mem_cons]
      exact ⟨hfirst, fun column hcolumn earlier hearlier =>
        hnew column hcolumn earlier (List.mem_append_left _ hearlier)⟩

end IndexDraft

/-! ### Places in the recipe -/

theorem HKeyRecipe.mem_steps_iff {recipe : HKeyRecipe} {i : Nat} :
    .indexRow i ∈ recipe.steps ↔ i ∈ recipe.segments.flatMap (·.positions) := by
  simp [steps, List.mem_flatMap]

namespace Index

variable {index : Index} {ordinals : Ordinals} {association : Association} {i : Nat}

/-- **Each appended column is the source of a column of the hierarchical key.** -/
theorem Built.exists_position_eq (h : index.Built) (hsound : index.leaf.Sound)
    (hnames : (index.leaf.lineage.map (·.name)).Nodup) (hi : index.keyColumns.length ≤ i)
    (hlt : i < index.width) :
    ∃ target ∈ index.hkeyLayout.columns, HKeyRecipe.position index target = .ok i := by
  obtain ⟨ps, hps, hadd⟩ := h.addMissing_sources hsound hnames
  have hmem : i ∈ addMissing (List.range index.keyColumns.length) ps :=
    hadd ▸ List.mem_range.mpr hlt
  rw [mem_addMissing, List.mem_range] at hmem
  obtain ⟨target, htarget, hplace⟩ :=
    exists_of_mem_right (mapM_eq_some_iff.mp hps) (hmem.resolve_left (Nat.not_lt.mpr hi))
  exact ⟨target, htarget, HKeyRecipe.position_eq_ok_iff.mpr hplace⟩

/-- A recipe has a step for the source of each column of the hierarchical key. -/
theorem mem_steps_of_position_eq (h : Association.compute index ordinals = .ok association)
    {target : ColumnRef} (htarget : target ∈ index.hkeyLayout.columns)
    (hplace : HKeyRecipe.position index target = .ok i) :
    .indexRow i ∈ association.recipe.steps := by
  obtain ⟨recipe, hrecipe, hmade⟩ := bind_eq_ok_iff.mp h
  obtain rfl := Except.ok.inj hmade
  obtain ⟨-, hsources⟩ := HKeyRecipe.ofIndex_ok hrecipe
  obtain ⟨j, hj, hsource⟩ := exists_of_mem_left (mapM_eq_some_iff.mp hsources) htarget
  rw [HKeyRecipe.position_eq_ok_iff, hsource, Option.some.injEq] at hplace
  exact HKeyRecipe.mem_steps_iff.mpr (hplace ▸ hj)

end Index

/-! ### What is built -/

namespace IndexDraft

variable {draft : IndexDraft} {index : Index}

/-- A valid draft is built if its columns can be completed, and it fails as completing them does. -/
theorem Valid.exists_build_eq (h : draft.Valid)
    (hnames : (draft.leaf.lineage.map (·.name)).Nodup) :
    ∃ finish : List IndexColumn → Index, draft.build =
      (complete draft.name draft.branch draft.leaf.hkeyLayout.columns
        draft.freeze.keyColumns).map finish := by
  obtain ⟨hkeys, depths, hdepths⟩ := (valid_iff hnames).mp h
  have hbranch := drop_lineage_eq_branch hnames hkeys hdepths
  rw [build_of_columnDepths hkeys hdepths, name_freeze, leaf_freeze, hbranch]
  exact ⟨_, rfl⟩

/-- The index has the key columns of the draft in order, and behind them what is missing of the
hierarchical keys of its leaf and nothing else. -/
structure Completes (draft : IndexDraft) (index : Index) : Prop where
  name : index.name = draft.name
  leaf : index.leaf = draft.leaf
  branch : index.branch = draft.branch
  keyColumns : index.keyColumns.Perm draft.keyColumns
  ascending : index.keyColumns.Pairwise fun a b => a.position < b.position
  added : ∃ added, index.allColumns = index.keyColumns ++ added ∧
    (∀ column ∈ added, column.direction = .asc) ∧ (added.map (·.ref)).Nodup ∧
      ∀ column ∈ added, ∀ key ∈ index.keyColumns, key.ref ≠ column.ref
  needed : ∀ i, index.keyColumns.length ≤ i → i < index.width →
    ∃ target ∈ index.hkeyLayout.columns, HKeyRecipe.position index target = .ok i

theorem Written.completes (h : draft.Written) (hsound : draft.leaf.Sound)
    (hnames : (draft.leaf.lineage.map (·.name)).Nodup) (hbuild : draft.build = .ok index) :
    draft.Completes index := by
  have hbuilt := h.built hbuild
  have hkeys := keyColumns_of_build hbuild
  obtain ⟨depths, hdepths, hname, hleaf, -, hroot, hcomplete⟩ := build_spec hbuild
  rw [name_freeze] at hname
  rw [leaf_freeze] at hleaf
  rw [← hleaf] at hsound hnames
  refine ⟨hname, hleaf, ?_, hkeys ▸ draft.perm_freeze, h.pairwise_keyColumns hbuild, ?_,
    fun i hi hlt => hbuilt.exists_position_eq hsound hnames hi hlt⟩
  · rw [hkeys] at hdepths
    rw [Index.branch, hroot, hleaf]
    rw [hleaf] at hnames
    exact drop_lineage_eq_branch hnames (exists_columnDepths_of_build hbuild).1 hdepths
  · obtain ⟨added, hall, hnodup, hnew⟩ := nodup_ref_of_complete
      (fun _ htable => hsound.of_mem_lineage (Index.mem_lineage_of_mem_branch htable))
      (Index.nodup_names_branch hnames) hcomplete
    obtain ⟨added', hall', hascending⟩ := hbuilt.allColumns_eq
    obtain rfl : added = added' := List.append_cancel_left (hall.symm.trans hall')
    exact ⟨added, hall, hascending, hnodup, hnew⟩

/-- **Completing is total, exact, and adds nothing needless.**  Take a valid draft that was written,
over a leaf whose lineage has distinct names.  It is built exactly if each column of the leaf's
hierarchical keys is held in the branch, and otherwise fails for the first one that is not.  The
index that is built completes the draft.  Its association under any ordinals is computed exactly if
all tables of the lineage have numbers, with every appended column among its steps, and otherwise
fails for the first table that has none. -/
theorem Written.completion (h : draft.Written) (hleaf : draft.leaf.Declared)
    (hnames : (draft.leaf.lineage.map (·.name)).Nodup) (hvalid : draft.Valid) :
    ((∃ index, draft.build = .ok index) ↔
      ∀ target ∈ draft.leaf.hkeyLayout.columns, target.HeldIn draft.branch) ∧
    (∀ e, draft.build = .error e ↔ ∃ target,
      FirstIn (fun target => ¬ target.HeldIn draft.branch) draft.leaf.hkeyLayout.columns target ∧
        e = .hkeyColumnUnavailable draft.name target) ∧
    ∀ index, draft.build = .ok index → draft.Completes index ∧ ∀ ordinals,
      ((∃ association, Association.compute index ordinals = .ok association) ↔
        ∀ table ∈ draft.leaf.lineage, (ordinals.ordinal? table.name).isSome) ∧
      (∀ association, Association.compute index ordinals = .ok association →
        ∀ i, index.keyColumns.length ≤ i → i < index.width →
          .indexRow i ∈ association.recipe.steps) ∧
      ∀ e, Association.compute index ordinals = .error e ↔ ∃ table,
        FirstIn (fun table => ordinals.ordinal? table.name = none) draft.leaf.lineage table ∧
          e = .missingOrdinal index.name table.name := by
  have hbranch : ∀ table ∈ draft.branch, table.Sound := fun table htable =>
    hleaf.sound.of_mem_lineage ((List.dropWhile_suffix _).mem htable)
  obtain ⟨finish, hfinish⟩ := hvalid.exists_build_eq hnames
  refine ⟨?_, fun e => ?_, fun index hbuild => ?_⟩
  · rw [← @exists_complete_iff draft.branch draft.freeze.keyColumns _ draft.name hbranch, hfinish]
    simp only [map_eq_ok_iff]
    exact ⟨fun ⟨_, all, hall, _⟩ => ⟨all, hall⟩, fun ⟨all, hall⟩ => ⟨_, all, hall, rfl⟩⟩
  · rw [hfinish, map_eq_error_iff, complete_eq_error_iff hbranch]
  · have hcompletes := h.completes hleaf.sound hnames hbuild
    have hbuilt := h.built hbuild
    rw [← hcompletes.leaf] at hleaf hnames ⊢
    refine ⟨hcompletes, fun ordinals => ⟨?_, ?_, fun e => ?_⟩⟩
    · exact hbuilt.exists_compute_iff hleaf.sound hnames
    · intro association hassociation i hi hlt
      obtain ⟨target, htarget, hplace⟩ := hcompletes.needed i hi hlt
      exact Index.mem_steps_of_position_eq hassociation htarget hplace
    · exact hbuilt.compute_eq_error_iff hleaf.sound hnames

/-- The draft of an index over lines by the amount of their sale, with its second key column added
first. -/
def byAmount : IndexDraft :=
  { overBranch .lines "by_amount" .left with
    keyColumns :=
      [⟨⟨"db", "lines"⟩, ⟨"shop", 3, .int, false⟩, 1, .desc⟩,
        ⟨⟨"db", "sales"⟩, ⟨"amount", 1, .int, true⟩, 0, .desc⟩] }

theorem written_byAmount : byAmount.Written := by
  have hfirst : (overBranch .lines "by_amount" .left).edit
      (.columnNamed .lines "shop" 1 .desc) = .ok { byAmount with
        keyColumns := [⟨⟨"db", "lines"⟩, ⟨"shop", 3, .int, false⟩, 1, .desc⟩] } := by
    decide +kernel
  have hsecond : IndexDraft.edit { byAmount with
      keyColumns := [⟨⟨"db", "lines"⟩, ⟨"shop", 3, .int, false⟩, 1, .desc⟩] }
        (.columnNamed .sales "amount" 0 .desc) = .ok byAmount := by
    decide +kernel
  exact .edit (.edit (.overBranch _ _ _) hfirst) hsecond

/-- The draft of an index over charges by their amount. -/
def chargesByAmount : IndexDraft :=
  { overTable .charges "by_amount" false .key with
    keyColumns := [⟨⟨"db", "charges"⟩, ⟨"amount", 1, .int, true⟩, 0, .asc⟩] }

theorem written_chargesByAmount : chargesByAmount.Written := by
  have hedit : (overTable .charges "by_amount" false .key).edit
      (.columnNamed .charges "amount" 0 .asc) = .ok chargesByAmount := by
    decide +kernel
  exact .edit (.overTable _ _ _ _) hedit

/-- The lines are indexed over their sales and themselves, and the association fails for their
shops if nothing has a number.  Charges hold the number of their account nowhere, so an index over
them cannot be completed. -/
theorem completion_samples :
    byAmount.Written ∧ Table.lines.Declared ∧ byAmount.Valid ∧
      byAmount.branch = [.sales, .lines] ∧
      (∃ index, byAmount.build = .ok index ∧ byAmount.Completes index ∧
        index.allColumns.map (·.ref) =
          [⟨⟨"db", "sales"⟩, 1⟩, ⟨⟨"db", "lines"⟩, 3⟩, ⟨⟨"db", "sales"⟩, 2⟩, ⟨⟨"db", "sales"⟩, 0⟩,
            ⟨⟨"db", "lines"⟩, 0⟩, ⟨⟨"db", "lines"⟩, 2⟩] ∧
        (∃ association, Association.compute index Index.sampleOrdinals = .ok association) ∧
        Association.compute index (.none 1) = .error (.missingOrdinal index.name ⟨"db", "shops"⟩)) ∧
      chargesByAmount.Written ∧ Table.charges.Declared ∧ chargesByAmount.Valid ∧
      chargesByAmount.build =
        .error (.hkeyColumnUnavailable chargesByAmount.name ⟨⟨"db", "accounts"⟩, 0⟩) := by
  have hlines : byAmount.Valid := ⟨by decide, by decide, by decide⟩
  have hcharges : chargesByAmount.Valid := ⟨by decide, by decide, by decide⟩
  obtain ⟨hbuilt, -, hindex⟩ :=
    written_byAmount.completion Table.declared_lines (by decide) hlines
  obtain ⟨-, hfails, -⟩ :=
    written_chargesByAmount.completion Table.declared_charges (by decide) hcharges
  obtain ⟨index, hbuild⟩ := hbuilt.mpr (by decide +kernel)
  obtain ⟨hcompletes, hassociations⟩ := hindex index hbuild
  have hsame : index = .linesByAmount := by
    have hsorted : sortColumns byAmount.keyColumns = Index.linesByAmount.keyColumns := by
      simp [sortColumns, byAmount, List.mergeSort, Index.linesByAmount]
    have hfreeze : byAmount.freeze =
        { byAmount with keyColumns := Index.linesByAmount.keyColumns, frozen := true } :=
      congrArg (fun keys => { byAmount with keyColumns := keys, frozen := true }) hsorted
    have hbuild' : byAmount.build = .ok .linesByAmount := by
      rw [← build_freeze, hfreeze]
      decide +kernel
    exact Except.ok.inj (hbuild.symm.trans hbuild')
  refine ⟨written_byAmount, Table.declared_lines, hlines, by decide, ⟨index, hbuild, hcompletes,
    by rw [hsame]; decide, (hassociations _).1.mpr (by decide +kernel), ?_⟩,
    written_chargesByAmount, Table.declared_charges, hcharges, ?_⟩
  · refine ((hassociations _).2.2 _).mpr ⟨.shops, ⟨[], [.sales, .lines], rfl, ?_, rfl⟩, rfl⟩
    exact fun _ h => absurd h List.not_mem_nil
  · refine (hfails _).mpr ⟨_, ⟨[], _, rfl, ?_, by decide +kernel⟩, rfl⟩
    exact fun _ h => absurd h List.not_mem_nil

end IndexDraft

end TableGroups
