import Mathlib.Data.List.Forall2
import Mathlib.Data.List.Nodup
import TableGroups.Proofs.Cursor.KeyScan
import TableGroups.Proofs.Cursor.Semijoin

/-!
# Intersecting indexes of a parent and its child

A `ParentChild` is a root table and a table that hangs from it.  Behind its key column, an index of
the parent has the parent's primary key, and an index of the child has the columns joined to that
key, in the same order (`keyed_parent`, `keyed_child`); so the entries of one key of each are in the
order of a common key.

* `intersection_selects`: whatever rows were inserted, the intersection of the two scans selects the
  child rows with one value in a column whose parent has another value in a column.

Every layer has its part in it: which columns an index has (`OverColumn.positions_child`), what a
store holds after insertions (`insertRows_spec`), what a scan of one key returns and in which order
(`Keyed.window_perm`, `Keyed.ascending_keyInput`), and what the merge makes of it (`streams_inner`).
-/

namespace TableGroups

/-- A root table and a child of it, each row of which names its parent by values of the same
kinds. -/
structure ParentChild where
  parent : TableShape
  child : TableShape
  pairs : List JoinPair
  declared : (Table.child child (.root parent) pairs).Declared
  name_ne : parent.name ≠ child.name
  primaryKey_nodup : parent.primaryKey.Nodup
  joined_nodup : (pairs.map (·.child)).Nodup
  kinds : ∀ pair ∈ pairs, ∃ p c : Column, parent.columns[pair.parent]? = some p ∧
    child.columns[pair.child]? = some c ∧ c.kind = p.kind ∧ p.kind ≠ .any

namespace ParentChild

variable (g : ParentChild)

def parentTable : Table :=
  .root g.parent

def childTable : Table :=
  .child g.child g.parentTable g.pairs

/-- Whether a row of the child names a row of the parent: the joined columns hold the same values.
Values are the same if they are equal in the canonical order, so a null is the same as a null, and
floats are the same if their bits are. -/
def joins (parentRow childRow : List Value) : Bool :=
  g.pairs.all fun pair => childRow[pair.child]? == parentRow[pair.parent]?

/-- Of the child's rows with `b` in column `z`, those that name one of the parent's rows with `a` in
column `x`.  Here too a column holds a value if what is in it is the same value, floats compared by
their bits. -/
def selected (parents children : List (List Value)) (x : Nat) (a : Value) (z : Nat) (b : Value) :
    List (List Value) :=
  (children.filter (·[z]? == some b)).filter fun child =>
    (parents.filter (·[x]? == some a)).any fun parent => g.joins parent child

/-- The kinds of the parent's primary key. -/
def keyKinds : List FieldKind :=
  g.parent.primaryKey.map fun p => ((g.parent.columns[p]?).map (·.kind)).getD .any

theorem sound_childTable : g.childTable.Sound :=
  g.declared.sound

theorem sound_parentTable : g.parentTable.Sound :=
  g.sound_childTable.of_mem_lineage (List.mem_append_left _ (Table.mem_lineage_self _))

theorem primaryKey_ne_nil : g.parent.primaryKey ≠ [] :=
  g.sound_parentTable.shape.primaryKey_ne_nil

theorem perm_primaryKey : (g.pairs.map (·.parent)).Perm g.parent.primaryKey := by
  cases g.sound_childTable with
  | child _ _ _ hperm => exact hperm

/-! ### The common key -/

/-- The columns joined to the parent's primary key, in the order of that key. -/
def JoinedTo (js : List Nat) : Prop :=
  List.Forall₂ (fun p j => JoinPair.mk j p ∈ g.pairs) g.parent.primaryKey js

variable {g} {left right : Index} {x z : IndexColumn} {js : List Nat}
  {parentRow childRow parentKey childKey : List Value}

theorem kindsAt_primaryKey : g.parentTable.KindsAt g.parent.primaryKey g.keyKinds := by
  rw [Table.KindsAt, keyKinds, List.forall₂_map_left_iff, List.forall₂_same]
  intro p hp
  obtain ⟨pair, hpair, rfl⟩ := List.mem_map.mp (g.perm_primaryKey.mem_iff.mpr hp)
  obtain ⟨column, _, hcolumn, -, -, hkind⟩ := g.kinds pair hpair
  rw [hcolumn]
  exact ⟨hkind, column, hcolumn, rfl⟩

/-- The columns joined to the parent's primary key are of its kinds. -/
theorem JoinedTo.kindsAt (h : g.JoinedTo js) : g.childTable.KindsAt js g.keyKinds := by
  rw [Table.KindsAt, keyKinds, List.forall₂_map_left_iff]
  refine h.imp fun p j hpair => ?_
  obtain ⟨parentColumn, column, hparentColumn, hcolumn, hsame, hkind⟩ := g.kinds _ hpair
  rw [hparentColumn]
  exact ⟨hkind, column, hcolumn, hsame⟩

theorem keyed_parent (h : left.OverColumn g.parentTable x)
    (hx : x.column.position ∉ g.parent.primaryKey) :
    left.Keyed g.parentTable x g.parent.primaryKey where
  toOverColumn := h
  sound := g.sound_parentTable
  positions := by
    refine ⟨[], ?_⟩
    rw [List.append_nil]
    exact h.positions_root g.sound_parentTable g.primaryKey_nodup hx

theorem keyed_child (h : right.OverColumn g.childTable z)
    (hz : z.column.position ∉ g.pairs.map (·.child)) :
    ∃ js, g.JoinedTo js ∧ right.Keyed g.childTable z js := by
  obtain ⟨js, rest, hpositions, hjs⟩ := h.positions_child g.sound_childTable g.sound_parentTable
    g.name_ne g.primaryKey_nodup g.joined_nodup hz
  exact ⟨js, hjs, h, g.sound_childTable, rest, hpositions⟩

/-- A child's row names a parent's row exactly if its joined columns hold the parent's key. -/
theorem JoinedTo.joins_iff (hjs : g.JoinedTo js)
    (hparent : g.parent.primaryKey.mapM (parentRow[·]?) = some parentKey)
    (hchild : js.mapM (childRow[·]?) = some childKey) :
    g.joins parentRow childRow ↔ parentKey = childKey := by
  rw [joins, List.all_eq_true]
  constructor
  · intro hall
    have hsame : List.Forall₂ (fun p j => parentRow[p]? = childRow[j]?) g.parent.primaryKey js :=
      hjs.imp fun p j hpair => (beq_iff_eq.mp (hall _ hpair)).symm
    have hkeys := mapM_eq_of_forall₂ hsame
    rw [hparent, hchild] at hkeys
    exact Option.some.inj hkeys
  · rintro rfl pair hpair
    -- the pair stands for some column of the key, which has one pair only
    obtain ⟨i, hi⟩ := List.mem_iff_getElem?.mp
      (g.perm_primaryKey.mem_iff.mp (List.mem_map_of_mem hpair))
    obtain ⟨j, hj, hother⟩ := exists_getElem?_of_forall₂ hjs hi
    have hparents : (g.pairs.map (·.parent)).Nodup :=
      g.perm_primaryKey.nodup_iff.mpr g.primaryKey_nodup
    have hsame : pair = ⟨j, pair.parent⟩ := List.inj_on_of_nodup_map hparents hpair hother rfl
    have hcolumn : pair.child = j := congrArg JoinPair.child hsame
    rw [beq_iff_eq, hcolumn, ← getElem?_of_mapM_eq_some hchild hj,
      ← getElem?_of_mapM_eq_some hparent hi]

/-! ### Merging by the common key -/

section

variable {e f : List Value} {d : Direction}

/-- Fields behind the keys of both sides can be compared. -/
theorem compareRuns_eq_ok (hleft : KeyComparator.BeginsWith g.keyKinds (e.drop 1))
    (hright : KeyComparator.BeginsWith g.keyKinds (f.drop 1)) :
    KeyComparator.compareRuns ⟨List.replicate g.parent.primaryKey.length d⟩ e 1 f 1 =
      .ok (compareAlong (List.replicate g.parent.primaryKey.length d) (e.drop 1) (f.drop 1)) := by
  refine KeyComparator.compareFields_of_beginsWith ?_ kindsAt_primaryKey.ne_any hleft hright 0
  rw [List.length_replicate, keyKinds, List.length_map]

/-- Entries of a parent and of a child agree behind their keys exactly if the child's row names the
parent's. -/
theorem JoinedTo.agree_eq_joins (hjs : g.JoinedTo js)
    (hleft : left.Keyed g.parentTable x g.parent.primaryKey)
    (hright : right.Keyed g.childTable z js)
    (hparentRow : checkTableRow g.parentTable parentRow = .ok ())
    (hchildRow : checkTableRow g.childTable childRow = .ok ())
    (he : (Composition.ofIndex left).indexRow? parentRow = some e)
    (hf : (Composition.ofIndex right).indexRow? childRow = some f) :
    KeyComparator.agree ⟨List.replicate g.parent.primaryKey.length d⟩ e 1 f 1 =
      g.joins parentRow childRow := by
  have hekinds := hleft.beginsWith g.kindsAt_primaryKey hparentRow he
  have hfkinds := hright.beginsWith hjs.kindsAt hchildRow hf
  rw [KeyComparator.agree, compareRuns_eq_ok hekinds hfkinds]
  obtain ⟨_, parentKey, parentRest, rfl, -, hparentKey⟩ := hleft.entry_spec he
  obtain ⟨_, childKey, childRest, rfl, -, hchildKey⟩ := hright.entry_spec hf
  have hparentLength : parentKey.length = g.parent.primaryKey.length :=
    (mapM_eq_some_iff.mp hparentKey).length_eq.symm
  have hchildLength : childKey.length = g.parent.primaryKey.length :=
    (mapM_eq_some_iff.mp hchildKey).length_eq.symm.trans hjs.length_eq.symm
  have hcompare : compareAlong (List.replicate g.parent.primaryKey.length d)
      (parentKey ++ parentRest) (childKey ++ childRest) = .eq ↔ parentKey = childKey := by
    rw [compareAlong_eq_iff_take (by simp [hparentLength]) (by simp [hchildLength]),
      List.length_replicate, List.take_left' hparentLength, List.take_left' hchildLength]
  rw [Bool.eq_iff_iff, hjs.joins_iff hparentKey hchildKey, ← hcompare, List.drop_succ_cons,
    List.drop_zero, List.drop_succ_cons, List.drop_zero]
  cases compareAlong (List.replicate g.parent.primaryKey.length d) (parentKey ++ parentRest)
    (childKey ++ childRest) <;> simp

variable {id : StoreId} {a b : Value} {leftSlot rightSlot : IndexSnapshot}
  {parents children : List (List Value)}

/-- Of the entries that a scan of the child returns, those that agree with an entry that the scan of
the parent returns are the entries of the selected rows. -/
theorem JoinedTo.filter_window_perm (hjs : g.JoinedTo js)
    (hleft : leftSlot.index.Keyed g.parentTable x g.parent.primaryKey)
    (hright : rightSlot.index.Keyed g.childTable z js)
    (hparents : leftSlot.Holds parents) (hchildren : rightSlot.Holds children)
    (hparentRows : ∀ row ∈ parents, checkTableRow g.parentTable row = .ok ())
    (hchildRows : ∀ row ∈ children, checkTableRow g.childTable row = .ok ()) :
    ∃ entries,
      (g.selected parents children x.column.position a z.column.position b).mapM
        (Composition.ofIndex rightSlot.index).indexRow? = some entries ∧
      (((IndexScan.ofKey id rightSlot.index [b] d).window rightSlot).filter fun f =>
        ((IndexScan.ofKey id leftSlot.index [a] d).window leftSlot).any fun e =>
          KeyComparator.agree ⟨List.replicate g.parent.primaryKey.length d⟩ e 1 f 1).Perm
        entries := by
  obtain ⟨leftEntries, hleftEntries, hleftPerm⟩ := hleft.window_perm hparents
  obtain ⟨rightEntries, hrightEntries, hrightPerm⟩ := hright.window_perm hchildren
  refine ⟨_, mapM_filter hrightEntries ?_, hrightPerm.filter _⟩
  intro child hchild f hf
  rw [hleftPerm.any_eq]
  refine any_eq_of_mapM_eq_some hleftEntries fun parent hparent e he => ?_
  exact (hjs.agree_eq_joins hleft hright (hparentRows _ (List.mem_of_mem_filter hparent))
    (hchildRows _ (List.mem_of_mem_filter hchild)) he hf).symm

end

/-! ### The intersection -/

/-- The inner intersection of a scan of each index by the parent's key, for the child's entries. -/
def keyRequest (g : ParentChild) (left right : Index) (leftScan rightScan : IndexScan)
    (d : Direction) : IntersectionRequest IndexScan IndexScan where
  left := some (left.keyInput leftScan)
  right := some (right.keyInput rightScan)
  comparisonFields := g.parent.primaryKey.length
  directions := List.replicate g.parent.primaryKey.length d
  join := some (.inner, .right)

/-- It is accepted, for the indexes are ordered on more columns than the key has. -/
theorem exists_build {leftScan rightScan : IndexScan} {d : Direction}
    (hleft : g.parent.primaryKey.length < left.width)
    (hright : g.parent.primaryKey.length < right.width) :
    ∃ m, (g.keyRequest left right leftScan rightScan d).build = .ok m := by
  refine ⟨_, IntersectionRequest.build_eq_ok_iff.mpr
    ⟨?_, ?_, List.length_replicate, ?_, by decide, rfl, rfl⟩⟩
  · show left.width - 1 ≤ (left.allColumns.map _).length
    rw [List.length_map]
    exact Nat.sub_le ..
  · show right.width - 1 ≤ (right.allColumns.map _).length
    rw [List.length_map]
    exact Nat.sub_le ..
  · show g.parent.primaryKey.length ≤ min (left.width - 1) (right.width - 1)
    omega

section

variable {id : StoreId} {stores : Stores} {context : QueryContext} {a b : Value} {d : Direction}
  {leftSlot rightSlot : IndexSnapshot} {parents children : List (List Value)}
  {inserts : List (Table × List Value)} {m : Intersection IndexScan IndexScan}

/-- The intersection of scans of two slots gives those entries of the child that agree with an entry
of the parent. -/
theorem JoinedTo.collect_eq (hjs : g.JoinedTo js)
    (hleft : leftSlot.index.Keyed g.parentTable x g.parent.primaryKey)
    (hright : rightSlot.index.Keyed g.childTable z js)
    (hparents : leftSlot.Holds parents) (hchildren : rightSlot.Holds children)
    (hparentRows : ∀ row ∈ parents, checkTableRow g.parentTable row = .ok ())
    (hchildRows : ∀ row ∈ children, checkTableRow g.childTable row = .ok ())
    (hleftSlot : (stores id).snapshot leftSlot.index.name = .ok leftSlot)
    (hrightSlot : (stores id).snapshot rightSlot.index.name = .ok rightSlot)
    (hcontext : context.interruption? = none)
    (hbuild : (g.keyRequest leftSlot.index rightSlot.index (.ofKey id leftSlot.index [a] d)
      (.ofKey id rightSlot.index [b] d) d).build = .ok m) :
    (Cursor.collect stores context m).result = .ok
      ((((IndexScan.ofKey id rightSlot.index [b] d).window rightSlot).filter fun f =>
        ((IndexScan.ofKey id leftSlot.index [a] d).window leftSlot).any fun e =>
          KeyComparator.agree ⟨List.replicate g.parent.primaryKey.length d⟩ e 1 f 1).map
        (Row.mk (.ofIndex rightSlot.index))) := by
  have hls := hleft.ascending_keyInput kindsAt_primaryKey hparents hparentRows id a d
  have hrs := hright.ascending_keyInput hjs.kindsAt hchildren hchildRows id b d
  rw [← hjs.length_eq] at hrs
  have hstreams := IntersectionRequest.streams_inner hbuild hcontext
    (IndexScan.streams_ofKey hleftSlot hcontext) (IndexScan.streams_ofKey hrightSlot hcontext)
    hls hrs
  rw [Index.counted_keyInput, Index.counted_keyInput, IntersectionRequest.innerRule,
    hleft.keyStart_keyInput, hright.keyStart_keyInput] at hstreams
  refine (hstreams fun l hl r hr => ?_).collect.trans ?_
  · obtain ⟨e, he, rfl⟩ := List.mem_map.mp hl
    obtain ⟨f, hf, rfl⟩ := List.mem_map.mp hr
    exact ⟨_, compareRuns_eq_ok
      (hleft.beginsWith_of_mem_window kindsAt_primaryKey hparents hparentRows he)
      (hright.beginsWith_of_mem_window hjs.kindsAt hchildren hchildRows hf)⟩
  · simp only [MergeRule.semijoin, List.filter_map, List.any_map, Function.comp_def]
    rfl

/-- The rows of each table fit it. -/
theorem checkTableRow_of_mem_rowsOf
    (htables : ∀ insert ∈ inserts, insert.1 = g.parentTable ∨ insert.1 = g.childTable)
    (hchecks : ∀ insert ∈ inserts, checkTableRow insert.1 insert.2 = .ok ()) :
    (∀ row ∈ IndexStore.rowsOf g.parentTable.name inserts,
      checkTableRow g.parentTable row = .ok ()) ∧
    ∀ row ∈ IndexStore.rowsOf g.childTable.name inserts,
      checkTableRow g.childTable row = .ok () := by
  constructor
  · refine IndexStore.checkTableRow_of_mem_rowsOf hchecks fun insert hinsert heq => ?_
    refine (htables insert hinsert).resolve_right fun hchild => g.name_ne ?_
    rw [hchild] at heq
    exact heq.symm
  · refine IndexStore.checkTableRow_of_mem_rowsOf hchecks fun insert hinsert heq => ?_
    refine (htables insert hinsert).resolve_left fun hparent => g.name_ne ?_
    rw [hparent] at heq
    exact heq

/-- **The intersection selects the children of some parents.**  Register an index of the parent by
one column and an index of the child by one column, neither of them in the key, and insert any rows
of both.  A scan of one value of each, with the order of all further columns in one direction, is
accepted, and so is the inner intersection that compares the parent's key.  It gives the entries of
the child's rows that have their value and name a parent's row with the other value, each once, in
the order of the columns behind the first. -/
theorem intersection_selects (d : Direction) (hleft : left.OverColumn g.parentTable x)
    (hright : right.OverColumn g.childTable z) (hx : x.column.position ∉ g.parent.primaryKey)
    (hz : z.column.position ∉ g.pairs.map (·.child))
    (htables : ∀ insert ∈ inserts, insert.1 = g.parentTable ∨ insert.1 = g.childTable)
    (hinserts : IndexStore.insertRows inserts
      (IndexStore.run [.register left, .register right]) = some (stores id))
    (hcontext : context.interruption? = none) (ha : a.fits x.column.kind)
    (hb : b.fits z.column.kind) (hanumber : a.isNaN = false) (hbnumber : b.isNaN = false) :
    ∃ (leftScan rightScan : IndexScan) (m : Intersection IndexScan IndexScan)
        (entries selected : List (List Value)),
      IndexScan.plan id left (.equal [a]) (.uniform (List.range' 1 (left.width - 1)) d) =
        .ok leftScan ∧
      IndexScan.plan id right (.equal [b]) (.uniform (List.range' 1 (right.width - 1)) d) =
        .ok rightScan ∧
      (g.keyRequest left right leftScan rightScan d).build = .ok m ∧
      (Cursor.collect stores context m).result = .ok (entries.map (Row.mk (.ofIndex right))) ∧
      (g.selected (IndexStore.rowsOf g.parentTable.name inserts)
        (IndexStore.rowsOf g.childTable.name inserts) x.column.position a z.column.position b).mapM
          (Composition.ofIndex right).indexRow? = some selected ∧
      entries.Perm selected ∧
      entries.Pairwise fun e f =>
        (compareAlong (List.replicate (right.width - 1) d) (e.drop 1) (f.drop 1)).isLE := by
  have hname : left.name ≠ right.name := by
    intro heq
    have htable := congrArg IndexName.table heq
    rw [hleft.built.name_table, hright.built.name_table, hleft.leaf, hright.leaf] at htable
    exact g.name_ne htable
  have hleftKeyed := keyed_parent hleft hx
  obtain ⟨js, hjs, hrightKeyed⟩ := keyed_child hright hz
  have hjs_ne : js ≠ [] := by
    rintro rfl
    exact g.primaryKey_ne_nil (List.forall₂_nil_right_iff.mp hjs)
  -- what the store holds
  obtain ⟨hleftFind, hrightFind⟩ := IndexStore.find?_run_register hname
  have hsound := IndexStore.sound_run [.register left, .register right]
  obtain ⟨leftSlot, hleftSlot, rfl, hparents⟩ :=
    IndexStore.exists_holds hsound hleftFind hinserts hleft.span
  obtain ⟨rightSlot, hrightSlot, rfl, hchildren⟩ :=
    IndexStore.exists_holds hsound hrightFind hinserts hright.span
  rw [hleft.leaf] at hparents
  rw [hright.leaf] at hchildren
  obtain ⟨hparentRows, hchildRows⟩ := checkTableRow_of_mem_rowsOf htables
    (IndexStore.insertRows_spec hsound hinserts hleftFind).2.1
  obtain ⟨m, hbuild⟩ := @exists_build g leftSlot.index rightSlot.index
    (.ofKey id leftSlot.index [a] d) (.ofKey id rightSlot.index [b] d) d
    hleftKeyed.length_lt_width (hjs.length_eq ▸ hrightKeyed.length_lt_width)
  obtain ⟨selected, hselected, hperm⟩ :=
    hjs.filter_window_perm hleftKeyed hrightKeyed hparents hchildren hparentRows hchildRows
  exact ⟨_, _, m, _, selected, hleftKeyed.plan_ofKey g.primaryKey_ne_nil ha hanumber,
    hrightKeyed.plan_ofKey hjs_ne hb hbnumber, hbuild,
    hjs.collect_eq hleftKeyed hrightKeyed hparents hchildren hparentRows hchildRows hleftSlot
      hrightSlot hcontext hbuild,
    hselected, hperm, (hrightKeyed.pairwise_window hchildren).filter _⟩

end

/-- Shops and their sales. -/
def shopSales : ParentChild where
  parent := Table.shops.shape
  child := Table.sales.shape
  pairs := [⟨2, 0⟩, ⟨3, 1⟩]
  declared := Table.declared_sales
  name_ne := by decide
  primaryKey_nodup := by decide
  joined_nodup := by decide
  kinds := by
    rw [List.forall_mem_cons, List.forall_mem_singleton]
    exact ⟨⟨_, _, rfl, rfl, rfl, by decide⟩, _, _, rfl, rfl, rfl, by decide⟩

/-- An index of the shops by owner. -/
def shopsByOwner : Index where
  name := ⟨⟨"db", "shops"⟩, "by_owner"⟩
  id := none
  unique := false
  constraint := .key
  span := .table
  valid := true
  treeName := "db.shops.by_owner"
  leaf := .shops
  rootDepth := 0
  keyColumns := [⟨⟨"db", "shops"⟩, ⟨"owner", 2, .text, true⟩, 0, .asc⟩]
  allColumns :=
    [⟨⟨"db", "shops"⟩, ⟨"owner", 2, .text, true⟩, 0, .asc⟩,
      ⟨⟨"db", "shops"⟩, ⟨"number", 1, .int, false⟩, 1, .asc⟩,
      ⟨⟨"db", "shops"⟩, ⟨"region", 0, .int, false⟩, 2, .asc⟩]

/-- An index of the sales by amount, highest first. -/
def salesByAmount : Index where
  name := ⟨⟨"db", "sales"⟩, "by_amount"⟩
  id := none
  unique := false
  constraint := .key
  span := .table
  valid := true
  treeName := "db.sales.by_amount"
  leaf := .sales
  rootDepth := 1
  keyColumns := [⟨⟨"db", "sales"⟩, ⟨"amount", 1, .int, true⟩, 0, .desc⟩]
  allColumns :=
    [⟨⟨"db", "sales"⟩, ⟨"amount", 1, .int, true⟩, 0, .desc⟩,
      ⟨⟨"db", "sales"⟩, ⟨"shop", 3, .int, false⟩, 1, .asc⟩,
      ⟨⟨"db", "sales"⟩, ⟨"region", 2, .int, false⟩, 2, .asc⟩,
      ⟨⟨"db", "sales"⟩, ⟨"id", 0, .int, false⟩, 3, .asc⟩]

theorem overColumn_shopsByOwner : shopsByOwner.OverColumn shopSales.parentTable
    ⟨⟨"db", "shops"⟩, ⟨"owner", 2, .text, true⟩, 0, .asc⟩ where
  built := by
    refine ⟨{ IndexDraft.overTable .shops "by_owner" false .key with
      keyColumns := shopsByOwner.keyColumns }, rfl, ?_⟩
    decide +kernel
  leaf := rfl
  span := rfl
  keyColumns := rfl

theorem overColumn_salesByAmount : salesByAmount.OverColumn shopSales.childTable
    ⟨⟨"db", "sales"⟩, ⟨"amount", 1, .int, true⟩, 0, .desc⟩ where
  built := by
    refine ⟨{ IndexDraft.overTable .sales "by_amount" false .key with
      keyColumns := salesByAmount.keyColumns }, rfl, ?_⟩
    decide +kernel
  leaf := rfl
  span := rfl
  keyColumns := rfl

/-- Two shops of Ann and one of Bob, and sales of them in between. -/
def sampleInserts : List (Table × List Value) :=
  [(shopSales.childTable, [.int 1, .int 500, .int 10, .int 3]),
    (shopSales.parentTable, [.int 10, .int 3, .text "ann"]),
    (shopSales.parentTable, [.int 10, .int 4, .text "bob"]),
    (shopSales.childTable, [.int 2, .int 500, .int 10, .int 4]),
    (shopSales.childTable, [.int 3, .int 500, .int 10, .int 1]),
    (shopSales.childTable, [.int 4, .int 70, .int 10, .int 3]),
    (shopSales.parentTable, [.int 10, .int 1, .text "ann"])]

/-- Of four sales, two are of 500 in a shop of Ann. -/
theorem intersection_selects_sample :
    ∃ store, IndexStore.insertRows sampleInserts
        (IndexStore.run [.register shopsByOwner, .register salesByAmount]) = some store ∧
      ∃ (leftScan rightScan : IndexScan) (m : Intersection IndexScan IndexScan)
          (entries : List (List Value)),
        IndexScan.plan 0 shopsByOwner (.equal [.text "ann"])
          (.uniform (List.range' 1 2) .desc) = .ok leftScan ∧
        IndexScan.plan 0 salesByAmount (.equal [.int 500])
          (.uniform (List.range' 1 3) .desc) = .ok rightScan ∧
        (shopSales.keyRequest shopsByOwner salesByAmount leftScan rightScan .desc).build = .ok m ∧
        (Cursor.collect (fun _ => store) .standard m).result =
          .ok (entries.map (Row.mk (.ofIndex salesByAmount))) ∧
        entries.Perm [[.int 500, .int 3, .int 10, .int 1],
          [.int 500, .int 1, .int 10, .int 3]] := by
  have hstored : (IndexStore.insertRows sampleInserts
      (IndexStore.run [.register shopsByOwner, .register salesByAmount])).isSome := by
    decide +kernel
  obtain ⟨store, hstore⟩ := Option.isSome_iff_exists.mp hstored
  obtain ⟨leftScan, rightScan, m, entries, selected, hleft, hright, hbuild, hresult, hselected,
      hperm, -⟩ :=
    @intersection_selects shopSales shopsByOwner salesByAmount _ _ 0 (fun _ => store) .standard
      (.text "ann") (.int 500) sampleInserts .desc overColumn_shopsByOwner overColumn_salesByAmount
      (by decide) (by decide) (by decide +kernel) hstore rfl (by decide) (by decide) rfl rfl
  have hselected' :
      selected = [[.int 500, .int 3, .int 10, .int 1], [.int 500, .int 1, .int 10, .int 3]] := by
    rw [← Option.some.injEq, ← hselected]
    decide +kernel
  exact ⟨store, hstore, leftScan, rightScan, m, entries, hleft, hright, hbuild, hresult,
    hselected' ▸ hperm⟩

end ParentChild

end TableGroups
