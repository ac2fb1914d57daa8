import TableGroups.Proofs.Index.Draft

/-!
# Key columns in any order

The key columns of a draft may come in any order, with other edits between them.  Freezing makes one
list of them, the stable sort by declared position (`StablySorts`).  It depends on nothing but the
columns of each position in turn (`StablySorts.eq`), so columns at distinct positions may come in
any order.

Edits are made one after the other by `tryEdits`, which leaves the draft as it was where an edit
fails.  A draft has two parts that do not look at each other.  Its settings come of those edits that
are settings, whatever its columns are (`settings_tryEdits`).  Its column list, once it is frozen,
is the stable sort of the columns that were added, whatever stood between them
(`keyColumns_freeze_tryEdits`), and no column is added to a frozen list.

* `IndexDraft.declaration_order`: definitions that differ in the order of their columns build the
  same, and a column list stays as it was frozen.
-/

namespace TableGroups

/-! ### Sorting stably -/

/-- An ascending list is determined by its elements of each key in turn. -/
theorem eq_of_forall_filter_eq {α : Type} {key : α → Nat} {xs ys : List α}
    (hxs : xs.Pairwise fun a b => key a ≤ key b) (hys : ys.Pairwise fun a b => key a ≤ key b)
    (h : ∀ k, xs.filter (key · == k) = ys.filter (key · == k)) : xs = ys := by
  have hmem {zs ws : List α} (hsame : ∀ k, zs.filter (key · == k) = ws.filter (key · == k)) :
      ∀ z ∈ zs, z ∈ ws := by
    intro z hz
    have hfilter : z ∈ zs.filter (key · == key z) :=
      List.mem_filter.mpr ⟨hz, beq_iff_eq.mpr rfl⟩
    rw [hsame] at hfilter
    exact List.mem_of_mem_filter hfilter
  induction xs generalizing ys with
  | nil => exact (List.eq_nil_iff_forall_not_mem.mpr fun y hy =>
      List.not_mem_nil (hmem (fun k => (h k).symm) y hy)).symm
  | cons x xs ih =>
    cases ys with
    | nil => cases hmem h x List.mem_cons_self
    | cons y ys =>
      obtain ⟨hx, hxrest⟩ := List.pairwise_cons.mp hxs
      obtain ⟨hy, hyrest⟩ := List.pairwise_cons.mp hys
      -- each first element is of the lowest key, and so they are the first ones of that key
      have hyx : key y ≤ key x := by
        rcases List.mem_cons.mp (hmem h x List.mem_cons_self) with rfl | hlater
        · exact Nat.le_refl _
        · exact hy x hlater
      have hxy : key x ≤ key y := by
        rcases List.mem_cons.mp (hmem (fun k => (h k).symm) y List.mem_cons_self) with rfl | hlater
        · exact Nat.le_refl _
        · exact hx y hlater
      have hkey : key y = key x := Nat.le_antisymm hyx hxy
      have hfirst := h (key x)
      simp only [List.filter_cons, hkey, beq_self_eq_true, if_true, List.cons.injEq] at hfirst
      obtain ⟨rfl, -⟩ := hfirst
      refine congrArg _ (ih hxrest hyrest fun k => ?_)
      have hall := h k
      rw [List.filter_cons, List.filter_cons] at hall
      split at hall
      · exact (List.cons.inj hall).2
      · exact hall

namespace IndexDraft

variable {draft edited : IndexDraft} {change : DraftEdit} {changes later : List DraftEdit}
  {columns others sorted : List IndexColumn}

/-- A list is the stable sort of columns by declared position: it ascends, and the columns of each
position stand in it in the order in which they came. -/
structure StablySorts (sorted columns : List IndexColumn) : Prop where
  ascends : sorted.Pairwise fun a b => a.position ≤ b.position
  keeps : ∀ p, sorted.filter (·.position == p) = columns.filter (·.position == p)

theorem stablySorts_sortColumns (columns : List IndexColumn) :
    StablySorts (sortColumns columns) columns where
  ascends := pairwise_sortColumns columns
  keeps p := by
    have hequal : (columns.filter (·.position == p)).Pairwise
        fun a b => decide (a.position ≤ b.position) := by
      refine List.pairwise_of_forall_mem_list fun a ha b hb => decide_eq_true ?_
      rw [List.mem_filter, beq_iff_eq] at ha hb
      exact Nat.le_of_eq (ha.2.trans hb.2.symm)
    -- columns of one position ascend already, and sorting keeps what ascends
    have hkept : (columns.filter (·.position == p)).Sublist (sortColumns columns) :=
      List.sublist_mergeSort decide_position_le_trans decide_position_le_total hequal
        List.filter_sublist
    have hpart := hkept.filter (·.position == p)
    rw [List.filter_filter] at hpart
    simp only [Bool.and_self] at hpart
    exact (hpart.eq_of_length ((perm_sortColumns columns).filter _).length_eq.symm).symm

/-- There is one stable sort of columns, and it depends on the columns of each position only. -/
theorem StablySorts.eq {sorted' : List IndexColumn} (h : StablySorts sorted columns)
    (h' : StablySorts sorted' others)
    (hsame : ∀ p, columns.filter (·.position == p) = others.filter (·.position == p)) :
    sorted = sorted' :=
  eq_of_forall_filter_eq h.ascends h'.ascends fun p => (h.keeps p).trans <|
    (hsame p).trans (h'.keeps p).symm

/-- Of columns at distinct positions there is at most one at each, in whichever order they come. -/
theorem filter_eq_of_perm (h : columns.Perm others)
    (hdistinct : columns.Pairwise fun a b => a.position ≠ b.position) (p : Nat) :
    columns.filter (·.position == p) = others.filter (·.position == p) := by
  have hothers : others.Pairwise fun a b => a.position ≠ b.position :=
    h.pairwise hdistinct fun hne => hne.symm
  refine (h.filter _).eq_of_pairwise (fun a b ha hb hne _ => ?_) (hdistinct.filter _)
    (hothers.filter _)
  rw [List.mem_filter, beq_iff_eq] at ha hb
  exact absurd (ha.2.trans hb.2.symm) hne

/-! ### Edits and the columns they ask for -/

end IndexDraft

namespace DraftEdit

/-- Whether an edit has nothing to do with the column list. -/
def isSetting : DraftEdit → Bool
  | .id _ | .packed _ | .valid _ | .treeName _ => true
  | _ => false

/-- No edit behind a freezing asks for a column. -/
def FreezesLast (changes : List DraftEdit) : Prop :=
  changes.Pairwise fun earlier later => earlier = .freeze → later.column? = none

end DraftEdit

namespace IndexDraft

variable {draft edited : IndexDraft} {change : DraftEdit} {changes later : List DraftEdit}
  {e : IndexError}

/-- The draft after an edit, which is as it was if the edit fails. -/
def tryEdit (draft : IndexDraft) (change : DraftEdit) : IndexDraft :=
  match draft.edit change with
  | .error _ => draft
  | .ok edited => edited

/-- The draft after edits were tried one after the other. -/
def tryEdits (draft : IndexDraft) (changes : List DraftEdit) : IndexDraft :=
  changes.foldl tryEdit draft

/-- The columns that edits add, tried one after the other: those of the edits that succeed. -/
def added (draft : IndexDraft) : List DraftEdit → List IndexColumn
  | [] => []
  | change :: rest =>
    match draft.edit change with
    | .error _ => draft.added rest
    | .ok edited => change.column?.toList ++ edited.added rest

theorem tryEdits_cons (draft : IndexDraft) (change : DraftEdit) (rest : List DraftEdit) :
    draft.tryEdits (change :: rest) = (draft.tryEdit change).tryEdits rest := rfl

theorem tryEdits_append (draft : IndexDraft) (changes later : List DraftEdit) :
    draft.tryEdits (changes ++ later) = (draft.tryEdits changes).tryEdits later :=
  List.foldl_append

theorem tryEdit_of_ok (h : draft.edit change = .ok edited) : draft.tryEdit change = edited := by
  rw [tryEdit, h]

theorem tryEdit_of_error (h : draft.edit change = .error e) : draft.tryEdit change = draft := by
  rw [tryEdit, h]

theorem added_cons (draft : IndexDraft) (change : DraftEdit) (rest : List DraftEdit) :
    draft.added (change :: rest) = draft.added [change] ++ (draft.tryEdit change).added rest := by
  rw [added, added, tryEdit]
  cases draft.edit change with
  | error e => rfl
  | ok edited => exact congrArg (· ++ _) (List.append_nil _).symm

theorem added_cons_of_ok (h : draft.edit change = .ok edited) :
    draft.added (change :: changes) = change.column?.toList ++ edited.added changes := by
  rw [added, h]

theorem added_cons_of_error (h : draft.edit change = .error e) :
    draft.added (change :: changes) = draft.added changes := by
  rw [added, h]

/-! ### The column list -/

/-- An open list takes every column that it is asked for. -/
theorem column?_of_edit_error (hopen : draft.frozen = false) (h : draft.edit change = .error e) :
    change.column? = none := by
  cases change with
  | columnNamed table column position direction =>
    rw [edit, addColumnNamed] at h
    split at h
    · next hnone => rw [DraftEdit.column?, hnone]; rfl
    · next found _ =>
      rw [addColumn_eq_ok_iff.mpr ⟨hopen, rfl⟩] at h
      cases h
  | column column =>
    rw [edit, addColumn_eq_ok_iff.mpr ⟨hopen, rfl⟩] at h
    cases h
  | _ => rfl

/-- What an edit can do to a draft, if it may fail. -/
theorem tryEdit_spec (draft : IndexDraft) (change : DraftEdit) :
    (draft.tryEdit change).name = draft.name ∧
      ((change = .freeze ∧ draft.tryEdit change = draft.freeze ∧ draft.added [change] = []) ∨
        ((draft.tryEdit change).frozen = draft.frozen ∧
          (draft.tryEdit change).keyColumns = draft.keyColumns ++ draft.added [change] ∧
          draft.added [change] = if draft.frozen then [] else change.column?.toList)) := by
  cases h : draft.edit change with
  | error e =>
    rw [tryEdit_of_error h, added_cons_of_error h, added]
    refine ⟨rfl, .inr ⟨rfl, (List.append_nil _).symm, ?_⟩⟩
    cases hfrozen : draft.frozen with
    | true => rfl
    | false => rw [column?_of_edit_error hfrozen h]; rfl
  | ok edited =>
    rw [tryEdit_of_ok h, added_cons_of_ok h, added, List.append_nil]
    obtain ⟨hname, -, ⟨rfl, rfl⟩ | ⟨hsame, hcolumns, hnone⟩⟩ := edit_spec h
    · exact ⟨hname, .inl ⟨rfl, rfl, rfl⟩⟩
    · refine ⟨hname, .inr ⟨hsame, hcolumns, ?_⟩⟩
      cases hfrozen : draft.frozen with
      | true => rw [hnone hfrozen]; rfl
      | false => rfl

/-- A frozen list stays, and nothing is added to it. -/
theorem frozen_tryEdits (hfrozen : draft.frozen = true) (changes : List DraftEdit) :
    (draft.tryEdits changes).frozen = true ∧
      (draft.tryEdits changes).keyColumns = draft.keyColumns ∧ draft.added changes = [] := by
  induction changes generalizing draft with
  | nil => exact ⟨hfrozen, rfl, rfl⟩
  | cons change rest ih =>
    rw [tryEdits_cons, added_cons]
    obtain ⟨-, ⟨-, hfreeze, hnone⟩ | ⟨hsame, hcolumns, hadded⟩⟩ := draft.tryEdit_spec change
    · rw [hfreeze, hnone, freeze_of_frozen hfrozen]
      exact ih hfrozen
    · rw [hadded, if_pos hfrozen, List.append_nil] at hcolumns
      rw [hadded, if_pos hfrozen, List.nil_append, ← hcolumns]
      exact ih (hsame.trans hfrozen)

/-- **The column list after any edits**, once it is frozen, is the sort of the columns that were
added. -/
theorem keyColumns_freeze_tryEdits (hopen : draft.frozen = false) (changes : List DraftEdit) :
    (draft.tryEdits changes).freeze.keyColumns =
      sortColumns (draft.keyColumns ++ draft.added changes) := by
  induction changes generalizing draft with
  | nil =>
    rw [added, List.append_nil]
    exact keyColumns_freeze_of_open hopen
  | cons change rest ih =>
    rw [tryEdits_cons, added_cons]
    obtain ⟨-, ⟨-, hfreeze, hnone⟩ | ⟨hsame, hcolumns, -⟩⟩ := draft.tryEdit_spec change
    · -- what comes behind the freezing changes nothing
      obtain ⟨hstays, hkeys, hadded⟩ := frozen_tryEdits draft.frozen_freeze rest
      rw [hfreeze, freeze_of_frozen hstays, hkeys, hadded, hnone, List.append_nil,
        List.append_nil, keyColumns_freeze_of_open hopen]
    · rw [← List.append_assoc, ← hcolumns]
      exact ih (hsame.trans hopen)

/-- If no column comes behind a freezing, all columns are added that are asked for. -/
theorem added_of_freezesLast (hopen : draft.frozen = false)
    (h : DraftEdit.FreezesLast changes) : draft.added changes = changes.filterMap (·.column?) := by
  induction changes generalizing draft with
  | nil => rfl
  | cons change rest ih =>
    obtain ⟨hfirst, hrest⟩ := List.pairwise_cons.mp h
    rw [added_cons, List.filterMap_cons]
    obtain ⟨-, ⟨rfl, hfreeze, hnone⟩ | ⟨hsame, -, hadded⟩⟩ := draft.tryEdit_spec change
    · have hlater : rest.filterMap (·.column?) = [] :=
        List.filterMap_eq_nil_iff.mpr fun later hlater => hfirst later hlater rfl
      rw [hfreeze, (frozen_tryEdits draft.frozen_freeze rest).2.2, hnone, hlater]
      rfl
    · rw [hadded, hopen, ih (hsame.trans hopen) hrest]
      cases change.column? <;> rfl

/-! ### The settings -/

/-- The draft without its column list. -/
def settings (draft : IndexDraft) : IndexDraft :=
  { draft with keyColumns := [], frozen := false }

/-- A draft is its settings and its column list. -/
theorem eq_of_settings_eq {other : IndexDraft} (hsettings : draft.settings = other.settings)
    (hcolumns : draft.keyColumns = other.keyColumns) (hfrozen : draft.frozen = other.frozen) :
    draft = other := by
  cases draft
  cases other
  simp_all [settings]

@[simp] theorem settings_freeze (draft : IndexDraft) : draft.freeze.settings = draft.settings := by
  unfold freeze
  split <;> rfl

/-- A setting is made whatever the columns are, and no other edit is one. -/
theorem settings_tryEdit (draft : IndexDraft) (change : DraftEdit) :
    (draft.tryEdit change).settings =
      if change.isSetting then draft.settings.tryEdit change else draft.settings := by
  cases change with
  | columnNamed table column position direction =>
    cases h : draft.edit (.columnNamed table column position direction) with
    | error e => rw [tryEdit_of_error h]; rfl
    | ok edited =>
      rw [tryEdit_of_ok h]
      rw [edit, addColumnNamed] at h
      split at h
      · cases h
      · obtain ⟨-, rfl⟩ := addColumn_eq_ok_iff.mp h
        rfl
  | column column =>
    cases h : draft.edit (.column column) with
    | error e => rw [tryEdit_of_error h]; rfl
    | ok edited =>
      obtain ⟨-, rfl⟩ := addColumn_eq_ok_iff.mp h
      rw [tryEdit_of_ok h]
      rfl
  | id number =>
    rw [tryEdit, tryEdit, edit, edit, assignId, assignId]
    cases IndexId.ofNat? number <;> rfl
  | packed word =>
    rw [tryEdit, tryEdit, edit, edit, unpack, unpack]
    cases IndexId.ofNat? (word % 0x10000) <;> rfl
  | valid valid => rfl
  | treeName treeName => rfl
  | freeze => exact draft.settings_freeze

/-- **The settings after any edits** come of those edits that are settings. -/
theorem settings_tryEdits (draft : IndexDraft) (changes : List DraftEdit) :
    (draft.tryEdits changes).settings = draft.settings.tryEdits (changes.filter (·.isSetting)) := by
  induction changes generalizing draft with
  | nil => rfl
  | cons change rest ih =>
    rw [tryEdits_cons, ih, settings_tryEdit, List.filter_cons]
    split <;> rfl

@[simp] theorem name_tryEdits (draft : IndexDraft) (changes : List DraftEdit) :
    (draft.tryEdits changes).name = draft.name := by
  induction changes generalizing draft with
  | nil => rfl
  | cons change rest ih =>
    rw [tryEdits_cons, ih, (draft.tryEdit_spec change).1]

/-! ### The order of declaration -/

/-- Definitions with the same settings that ask for the same columns, at distinct positions and
before any freezing, come to the same draft once it is frozen. -/
theorem freeze_tryEdits_eq_of_perm {others : List DraftEdit} (hlast : DraftEdit.FreezesLast changes)
    (hothers : DraftEdit.FreezesLast others)
    (hsettings : changes.filter (·.isSetting) = others.filter (·.isSetting))
    (hcolumns : (changes.filterMap (·.column?)).Perm (others.filterMap (·.column?)))
    (hdistinct : (changes.filterMap (·.column?)).Pairwise fun a b => a.position ≠ b.position) :
    (draft.tryEdits changes).freeze = (draft.tryEdits others).freeze := by
  refine eq_of_settings_eq ?_ ?_ ?_
  · rw [settings_freeze, settings_freeze, settings_tryEdits, settings_tryEdits, hsettings]
  · cases hfrozen : draft.frozen with
    | true =>
      obtain ⟨hstays, hkeys, -⟩ := frozen_tryEdits hfrozen changes
      obtain ⟨hstays', hkeys', -⟩ := frozen_tryEdits hfrozen others
      rw [freeze_of_frozen hstays, freeze_of_frozen hstays', hkeys, hkeys']
    | false =>
      rw [keyColumns_freeze_tryEdits hfrozen, keyColumns_freeze_tryEdits hfrozen,
        added_of_freezesLast hfrozen hlast, added_of_freezesLast hfrozen hothers]
      refine (stablySorts_sortColumns _).eq (stablySorts_sortColumns _) fun p => ?_
      rw [List.filter_append, List.filter_append, filter_eq_of_perm hcolumns hdistinct]
  · rw [frozen_freeze, frozen_freeze]

/-- **The order of declaration does not count.**  Take two definitions that begin with the same
draft and make the same settings in the same order.  If they ask for the same columns, at distinct
positions, in any two orders and freeze the list only behind them, however often, then they build
the same index or fail alike.

Once the list of an open draft is frozen, it is the stable sort by position of the columns that were
there and those added before, and no edit changes it.  A column is refused, and so is the column of
a table with a name, for being unknown if it is. -/
theorem declaration_order (draft : IndexDraft) :
    (∀ changes others : List DraftEdit, DraftEdit.FreezesLast changes →
      DraftEdit.FreezesLast others →
      changes.filter (·.isSetting) = others.filter (·.isSetting) →
      (changes.filterMap (·.column?)).Perm (others.filterMap (·.column?)) →
      (changes.filterMap (·.column?)).Pairwise (fun a b => a.position ≠ b.position) →
      (draft.tryEdits changes).build = (draft.tryEdits others).build) ∧
    (draft.frozen = false → ∀ changes later : List DraftEdit,
      let frozen := draft.tryEdits (changes ++ .freeze :: later)
      frozen.keyColumns = (draft.tryEdits (changes ++ [.freeze])).keyColumns ∧
        StablySorts frozen.keyColumns (draft.keyColumns ++ draft.added changes) ∧
        (∀ column, frozen.addColumn column = .error (.columnsFrozen draft.name)) ∧
        ∀ table column position direction,
          frozen.addColumnNamed table column position direction =
            .error (if (table.columnNamed? column).isSome then .columnsFrozen draft.name
              else .unknownColumn draft.name table.name column)) := by
  constructor
  · intro changes others hlast hothers hsettings hcolumns hdistinct
    rw [← build_freeze (draft.tryEdits changes), ← build_freeze (draft.tryEdits others),
      freeze_tryEdits_eq_of_perm hlast hothers hsettings hcolumns hdistinct]
  · intro hopen changes later frozen
    have hsplit : frozen = ((draft.tryEdits changes).freeze).tryEdits later := by
      rw [show frozen = _ from draft.tryEdits_append changes (.freeze :: later)]
      rfl
    have hsingle : draft.tryEdits (changes ++ [.freeze]) = (draft.tryEdits changes).freeze := by
      rw [tryEdits_append]
      rfl
    obtain ⟨hstays, hkeys, -⟩ := frozen_tryEdits (draft.tryEdits changes).frozen_freeze later
    rw [← hsplit] at hstays hkeys
    have hname : frozen.name = draft.name := draft.name_tryEdits _
    have hrefused : ∀ column, frozen.addColumn column = .error (.columnsFrozen draft.name) := by
      intro column
      rw [addColumn, if_pos hstays, hname]
    refine ⟨hkeys.trans (congrArg _ hsingle.symm), ?_, hrefused, ?_⟩
    · rw [hkeys, keyColumns_freeze_tryEdits hopen]
      exact stablySorts_sortColumns _
    · intro table column position direction
      rw [addColumnNamed]
      cases table.columnNamed? column with
      | none => rw [hname]; rfl
      | some found => exact hrefused _

/-- Lines by sale and price, the price asked for first, and frozen twice. -/
def priceFirst : List DraftEdit :=
  [.columnNamed .lines "price" 1 .desc, .id 7, .columnNamed .lines "sale" 0 .asc, .id 70000,
    .freeze, .freeze]

/-- The same, the sale asked for first, and in between a column that lines do not have. -/
def saleFirst : List DraftEdit :=
  [.columnNamed .lines "sale" 0 .asc, .id 7, .columnNamed .lines "weight" 2 .asc, .id 70000,
    .columnNamed .lines "price" 1 .desc]

/-- An index over lines by sale and price. -/
def linesBySale : Index :=
  { Index.linesByPrice with
    name := ⟨⟨"db", "lines"⟩, "by_sale"⟩
    id := some 7
    treeName := "db.lines.by_sale"
    keyColumns :=
      [⟨⟨"db", "lines"⟩, ⟨"sale", 2, .int, false⟩, 0, .asc⟩,
        ⟨⟨"db", "lines"⟩, ⟨"price", 1, .int, true⟩, 1, .desc⟩]
    allColumns :=
      [⟨⟨"db", "lines"⟩, ⟨"sale", 2, .int, false⟩, 0, .asc⟩,
        ⟨⟨"db", "lines"⟩, ⟨"price", 1, .int, true⟩, 1, .desc⟩,
        ⟨⟨"db", "lines"⟩, ⟨"shop", 3, .int, false⟩, 2, .asc⟩,
        ⟨⟨"db", "lines"⟩, ⟨"region", 4, .int, false⟩, 3, .asc⟩,
        ⟨⟨"db", "lines"⟩, ⟨"line", 0, .int, false⟩, 4, .asc⟩] }

theorem build_saleFirst :
    ((overTable .lines "by_sale" false .key).tryEdits saleFirst).build = .ok linesBySale := by
  have hdraft : (overTable .lines "by_sale" false .key).tryEdits saleFirst =
      { overTable .lines "by_sale" false .key with
        id := some 7
        keyColumns := linesBySale.keyColumns } := by decide +kernel
  have hsorted : sortColumns linesBySale.keyColumns = linesBySale.keyColumns :=
    List.mergeSort_of_pairwise (by decide)
  rw [hdraft, ← build_freeze]
  simp only [freeze, overTable, Bool.false_eq_true, if_false, hsorted]
  decide +kernel

/-- Both definitions give one index, and once the first one is frozen, a shop is not taken any
more. -/
theorem declaration_order_lines :
    let draft := overTable .lines "by_sale" false .key
    DraftEdit.FreezesLast priceFirst ∧ DraftEdit.FreezesLast saleFirst ∧
      priceFirst.filter (·.isSetting) = saleFirst.filter (·.isSetting) ∧
      (priceFirst.filterMap (·.column?)).Perm (saleFirst.filterMap (·.column?)) ∧
      (priceFirst.filterMap (·.column?)).Pairwise (fun a b => a.position ≠ b.position) ∧
      (draft.tryEdits priceFirst).build = .ok linesBySale ∧
      draft.frozen = false ∧
      StablySorts (draft.tryEdits (priceFirst ++ .freeze :: saleFirst)).keyColumns
        (draft.keyColumns ++ draft.added priceFirst) ∧
      (draft.tryEdits (priceFirst ++ .freeze :: saleFirst)).addColumnNamed .lines "shop" 2 .asc =
        .error (.columnsFrozen ⟨⟨"db", "lines"⟩, "by_sale"⟩) := by
  intro draft
  have hprice : DraftEdit.FreezesLast priceFirst := by
    simp [DraftEdit.FreezesLast, priceFirst, DraftEdit.column?]
  have hsale : DraftEdit.FreezesLast saleFirst := by
    simp [DraftEdit.FreezesLast, saleFirst]
  have hperm : (priceFirst.filterMap (·.column?)).Perm (saleFirst.filterMap (·.column?)) := by
    decide +kernel
  have hdistinct : (priceFirst.filterMap (·.column?)).Pairwise
      (fun a b => a.position ≠ b.position) := by decide +kernel
  obtain ⟨horder, hfreezing⟩ := draft.declaration_order
  obtain ⟨-, hsorts, -, hrefused⟩ := hfreezing rfl priceFirst saleFirst
  refine ⟨hprice, hsale, rfl, hperm, hdistinct, ?_, rfl, hsorts, ?_⟩
  · rw [horder _ _ hprice hsale rfl hperm hdistinct, build_saleFirst]
  · exact hrefused .lines "shop" 2 .asc

end IndexDraft

end TableGroups
