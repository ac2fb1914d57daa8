import Mathlib.Data.List.Induction
import Mathlib.Data.List.Perm.Basic
import TableGroups.Proofs.ListM
import TableGroups.Proofs.SortedMap
import TableGroups.Proofs.Store.Search
import TableGroups.Proofs.Value.RowOrder
import TableGroups.Store

/-!
# Runs of a store

A `StoreCall` is a change of a store as data, and `IndexStore.run` makes calls one after the other,
starting from the store without indexes.  Only two rows go into an index: a row of the index that
was checked against it, and what the index makes of a row of a table of its leaf's name
(`StoreCall.Puts`).  So what a new slot has and these rows keep, every slot has after a run,
whatever the calls are and whether they succeed or fail (`allSlots_run`).

So each registered index keeps rows of its own width in index order (`sound_run`).  One insertion
keeps the order because the binary search finds the place behind the last entry that does not come
after the new row (`Ordered.insert`).

Each entry of an index was put there by a call that wrote to it since it was registered
(`exists_puts_of_mem_entries`).  These calls are told by the slot of its name: it changes with each
of them (`insertions`).
-/

namespace TableGroups

/-- Rows of the index's table go into the index. -/
def Index.isOver (index : Index) (table : TableName) : Bool :=
  index.isTableIndex && index.leaf.name == table

theorem Index.isOver_iff {index : Index} {table : TableName} :
    index.isOver table ↔ index.span = .table ∧ index.leaf.name = table := by
  rw [Index.isOver, Bool.and_eq_true, beq_iff_eq, Index.isTableIndex, beq_iff_eq, Index.kind]
  cases index.span <;> simp [IndexSpan.kind]

/-- A call that may change a store. -/
inductive StoreCall where
  | register (index : Index)
  | drop (name : IndexName)
  | insertIndexRow (name : IndexName) (row : List Value)
  | insertTableRow (table : Table) (row : List Value)
  deriving DecidableEq

/-- The call inserts a row. -/
def StoreCall.isInsert : StoreCall → Bool
  | .insertIndexRow .. => true
  | .insertTableRow .. => true
  | _ => false

/-- The call may put a row into an index: as a row of the index that passes its check, or as what
the index makes of a row of its table that passes the check of the table. -/
def StoreCall.Puts (index : Index) (row : List Value) : StoreCall → Prop
  | .insertIndexRow name values =>
    name = index.name ∧ values = row ∧ checkIndexRow index row = .ok ()
  | .insertTableRow table values =>
    index.isOver table.name ∧ checkTableRow table values = .ok () ∧
      (Composition.ofIndex index).indexRow? values = some row
  | _ => False

namespace IndexStore

/-- The store after a call.  A call that fails changes nothing, except that a table row may have
been written in part. -/
def perform (store : IndexStore) : StoreCall → IndexStore
  | .register index => (store.register index).toOption.getD store
  | .drop name => ((store.drop name).toOption.map Prod.snd).getD store
  | .insertIndexRow name row => (store.insertIndexRow name row).toOption.getD store
  | .insertTableRow table row => (store.insertTableRow table row).2

/-- The store after calls made one after the other, at first without indexes. -/
def run (calls : List StoreCall) : IndexStore :=
  calls.foldl perform empty

theorem run_concat (calls : List StoreCall) (call : StoreCall) :
    run (calls ++ [call]) = (run calls).perform call :=
  List.foldl_concat ..

end IndexStore

/-! ### Order inside an index -/

namespace Index

@[simp] theorem length_directions (index : Index) : index.directions.length = index.width := by
  simp [directions, width]

theorem compareRows_swap (index : Index) (a b : List Value) :
    index.compareRows a b = (index.compareRows b a).swap :=
  compareAlong_swap _ a b

theorem compareRows_isLE_trans {index : Index} {a b c : List Value} (hb : index.width ≤ b.length)
    (h1 : (index.compareRows a b).isLE) (h2 : (index.compareRows b c).isLE) :
    (index.compareRows a c).isLE :=
  compareAlong_isLE_trans (by simpa using hb) h1 h2

end Index

/-- The entries are rows of the index, in index order. -/
structure IndexSnapshot.Ordered (slot : IndexSnapshot) : Prop where
  width : ∀ entry ∈ slot.entries, entry.length = slot.index.width
  sorted : slot.entries.Pairwise fun a b => (slot.index.compareRows a b).isLE

namespace IndexSnapshot

variable {slot : IndexSnapshot} {row : List Value}

/-- The entries that do not come after a row are the first ones. -/
theorem Ordered.splits_isLE (h : slot.Ordered) (bound : List Value) :
    Splits (fun entry => slot.index.compareRows entry bound != .gt) slot.entries := by
  refine h.sorted.imp_of_mem fun {a b} _ hb hab hpass => ?_
  have hle : (slot.index.compareRows b bound).isLE := by
    simpa [Ordering.isLE_iff_ne_gt] using hpass
  have := Index.compareRows_isLE_trans (h.width b hb ▸ Nat.le_refl _) hab hle
  simpa [Ordering.isLE_iff_ne_gt] using this

/-- The entries that come before a row are the first ones. -/
theorem Ordered.splits_lt (h : slot.Ordered) (bound : List Value) :
    Splits (fun entry => slot.index.compareRows entry bound == .lt) slot.entries := by
  refine h.sorted.imp_of_mem fun {a b} ha _ hab hpass => ?_
  have hlt : slot.index.compareRows b bound = .lt := by simpa using hpass
  have hwidth : slot.index.directions.length ≤ a.length := by
    simp [h.width a ha]
  exact beq_iff_eq.mpr (compareAlong_lt_of_isLE_of_lt hwidth hab hlt)

/-- The new entry stands between those that do not come after it and those that do. -/
theorem Ordered.entries_insert (h : slot.Ordered) (row : List Value) :
    (slot.insert row).entries =
      slot.entries.filter (fun entry => slot.index.compareRows entry row != .gt) ++
        row :: slot.entries.filter fun entry => !(slot.index.compareRows entry row != .gt) := by
  have hsplit := h.splits_isLE row
  rw [← take_boundary hsplit, ← drop_boundary hsplit,
    ← insertIdx_eq_take_append_drop _ _ (boundary_le_length _ _)]
  rfl

/-- What stands behind a new entry does not come before it. -/
theorem isLE_of_mem_behind {entry : List Value}
    (h : entry ∈ slot.entries.filter fun entry => !(slot.index.compareRows entry row != .gt)) :
    (slot.index.compareRows row entry).isLE := by
  have hgt : slot.index.compareRows entry row = .gt := by simpa using (List.mem_filter.mp h).2
  rw [Index.compareRows_swap, hgt]
  rfl

theorem Ordered.insert (h : slot.Ordered) (hrow : row.length = slot.index.width) :
    (slot.insert row).Ordered := by
  constructor
  · intro entry hmem
    rw [h.entries_insert, List.mem_append, List.mem_cons, List.mem_filter, List.mem_filter] at hmem
    rcases hmem with hmem | rfl | hmem
    · exact h.width entry hmem.1
    · exact hrow
    · exact h.width entry hmem.1
  · rw [h.entries_insert, List.pairwise_append, List.pairwise_cons]
    refine ⟨h.sorted.filter _, ⟨fun b hb => ?_, h.sorted.filter _⟩, fun a ha b hb => ?_⟩
    · -- what stands behind the row comes after it
      show (slot.index.compareRows row b).isLE
      exact isLE_of_mem_behind hb
    · have hle : (slot.index.compareRows a row).isLE := by
        simpa [Ordering.isLE_iff_ne_gt] using (List.mem_filter.mp ha).2
      rcases List.mem_cons.mp hb with rfl | hb
      · exact hle
      · have hbehind : (slot.index.compareRows row b).isLE := isLE_of_mem_behind hb
        exact Index.compareRows_isLE_trans (hrow ▸ Nat.le_refl _) hle hbehind

/-- A slot without entries is in order. -/
theorem ordered_nil (index : Index) : Ordered ⟨index, []⟩ :=
  ⟨by simp, List.Pairwise.nil⟩

/-- Inserting adds one entry and loses none. -/
theorem insert_perm (slot : IndexSnapshot) (row : List Value) :
    (slot.insert row).entries.Perm (row :: slot.entries) :=
  List.perm_insertIdx _ _ (boundary_le_length _ _)

/-- Every entry was put there by one of some calls. -/
def PutBy (slot : IndexSnapshot) (calls : List StoreCall) : Prop :=
  ∀ entry ∈ slot.entries, ∃ call ∈ calls, call.Puts slot.index entry

theorem putBy_nil (index : Index) (calls : List StoreCall) : PutBy ⟨index, []⟩ calls := by
  simp [PutBy]

theorem PutBy.mono {calls more : List StoreCall} (h : slot.PutBy calls) (hmore : calls ⊆ more) :
    slot.PutBy more := by
  intro entry hentry
  obtain ⟨call, hcall, hputs⟩ := h entry hentry
  exact ⟨call, hmore hcall, hputs⟩

theorem PutBy.insert {calls : List StoreCall} (h : slot.PutBy calls)
    (hrow : ∃ call ∈ calls, call.Puts slot.index row) : (slot.insert row).PutBy calls := by
  intro entry hentry
  rcases List.mem_cons.mp ((slot.insert_perm row).mem_iff.mp hentry) with rfl | hentry
  · exact hrow
  · exact h entry hentry

end IndexSnapshot

/-! ### What holds of every slot -/

namespace IndexStore

/-- Every index is kept under its own name, and its slot has a property. -/
def AllSlots (P : IndexSnapshot → Prop) (store : IndexStore) : Prop :=
  ∀ name slot, store.slots.find? name = some slot → slot.index.name = name ∧ P slot

/-- Every index is kept under its own name, its entries in order. -/
def Sound (store : IndexStore) : Prop :=
  store.AllSlots IndexSnapshot.Ordered

variable {store : IndexStore} {slot : IndexSnapshot} {row : List Value}

/-- A snapshot is a slot of the store. -/
theorem snapshot_eq_ok_iff {name : IndexName} :
    store.snapshot name = .ok slot ↔ store.slots.find? name = some slot := by
  unfold snapshot
  cases store.slots.find? name <;> simp

theorem Sound.of_snapshot {name : IndexName} (h : store.Sound)
    (hslot : store.snapshot name = .ok slot) : slot.index.name = name ∧ slot.Ordered :=
  h name slot (snapshot_eq_ok_iff.mp hslot)

/-- A row of an index that is taken passes the index's check and is written to its slot. -/
theorem insertIndexRow_ok {name : IndexName} {after : IndexStore}
    (h : store.insertIndexRow name row = .ok after) :
    ∃ slot, store.slots.find? name = some slot ∧ checkIndexRow slot.index row = .ok () ∧
      after = store.write slot row := by
  unfold insertIndexRow snapshot at h
  cases hfind : store.slots.find? name with
  | none => simp [hfind, bind, Except.bind] at h
  | some slot =>
    simp only [hfind, bind, Except.bind] at h
    cases hcheck : checkIndexRow slot.index row with
    | error e => simp [hcheck] at h
    | ok _ =>
      simp only [hcheck, pure, Except.pure, Except.ok.injEq] at h
      exact ⟨slot, rfl, hcheck, h.symm⟩

/-- What an index makes of a table row is a row of the index. -/
theorem length_of_indexRow? {index : Index} {entry : List Value}
    (h : (Composition.ofIndex index).indexRow? row = some entry) : entry.length = index.width := by
  have hlen := (mapM_eq_some_iff.mp h).length_eq
  simpa [Composition.ofIndex, Index.width] using hlen.symm

/-- The slots over a table are slots of the store. -/
theorem exists_find?_of_mem_slotsOver {table : TableName} (hslot : slot ∈ store.slotsOver table) :
    ∃ name, store.slots.find? name = some slot :=
  SortedMap.mem_values_iff.mp (List.mem_filter.mp hslot).1

section

variable {P : IndexSnapshot → Prop} {Q : Index → List Value → Prop}
  (hinsert : ∀ {slot row}, P slot → Q slot.index row → P (slot.insert row))
include hinsert

/-- Writing an entry that keeps the property of its slot keeps that of all slots. -/
theorem AllSlots.write (h : store.AllSlots P) (hslot : P slot) (hrow : Q slot.index row) :
    (store.write slot row).AllSlots P := by
  intro name other hfind
  rw [IndexStore.write, SortedMap.find?_insert] at hfind
  split_ifs at hfind with hname
  · obtain rfl := Option.some.inj hfind
    exact ⟨(Std.LawfulEqCmp.eq_of_compare hname).symm, hinsert hslot hrow⟩
  · exact h name other hfind

/-- Writing a table row to slots keeps the property, also if it stops half way. -/
theorem AllSlots.writeTableRow {table : TableName} {slots : List IndexSnapshot}
    (hslots : ∀ slot ∈ slots, P slot ∧
      ∀ entry, (Composition.ofIndex slot.index).indexRow? row = some entry → Q slot.index entry)
    (h : store.AllSlots P) : (writeTableRow table row slots store).2.AllSlots P := by
  induction slots generalizing store with
  | nil => exact h
  | cons slot rest ih =>
    rw [List.forall_mem_cons] at hslots
    obtain ⟨⟨hslot, hentries⟩, hrest⟩ := hslots
    rw [IndexStore.writeTableRow]
    split
    · exact h
    · next entry hentry => exact ih hrest (h.write hinsert hslot (hentries entry hentry))

/-- One call keeps the property, if a slot that it adds has it and the rows that it may put into an
index keep it. -/
theorem AllSlots.perform (h : store.AllSlots P) {call : StoreCall}
    (hcall : ∀ index, call = .register index → P ⟨index, []⟩)
    (hputs : ∀ index row, call.Puts index row → Q index row) :
    (store.perform call).AllSlots P := by
  cases call with
  | register index =>
    rw [IndexStore.perform, IndexStore.register]
    split_ifs
    · exact h
    · intro name slot hfind
      rw [Except.toOption, Option.getD_some, SortedMap.find?_insert] at hfind
      split_ifs at hfind with hname
      · obtain rfl := Option.some.inj hfind
        exact ⟨(Std.LawfulEqCmp.eq_of_compare hname).symm, hcall index rfl⟩
      · exact h name slot hfind
  | drop name =>
    rw [IndexStore.perform, IndexStore.drop]
    split
    · intro other slot hfind
      rw [Except.toOption, Option.map_some, Option.getD_some, SortedMap.find?_erase] at hfind
      split_ifs at hfind
      exact h other slot hfind
    · exact h
  | insertIndexRow name row =>
    rw [IndexStore.perform]
    cases hins : store.insertIndexRow name row with
    | error e => exact h
    | ok after =>
      obtain ⟨slot, hfind, hcheck, rfl⟩ := insertIndexRow_ok hins
      obtain ⟨hname, hslot⟩ := h name slot hfind
      exact h.write hinsert hslot (hputs slot.index row ⟨hname.symm, rfl, hcheck⟩)
  | insertTableRow table row =>
    rw [IndexStore.perform, IndexStore.insertTableRow]
    split
    · exact h
    · next hcheck =>
      refine h.writeTableRow hinsert fun slot hslot => ?_
      have hover : slot.index.isOver table.name := (List.mem_filter.mp hslot).2
      obtain ⟨name, hfind⟩ := exists_find?_of_mem_slotsOver hslot
      exact ⟨(h name slot hfind).2, fun entry hentry =>
        hputs slot.index entry ⟨hover, hcheck, hentry⟩⟩

/-- A run keeps the property, if the slots that it adds have it and the rows that it may put into
an index keep it. -/
theorem allSlots_run {calls : List StoreCall}
    (hcalls : ∀ index, .register index ∈ calls → P ⟨index, []⟩)
    (hputs : ∀ call ∈ calls, ∀ index row, call.Puts index row → Q index row) :
    (run calls).AllSlots P := by
  induction calls using List.reverseRecOn with
  | nil =>
    intro name slot hfind
    simp [run, empty] at hfind
  | append_singleton calls call ih =>
    rw [run_concat]
    rw [List.forall_mem_append, List.forall_mem_singleton] at hputs
    refine (ih (fun index hmem => hcalls index (List.mem_append_left _ hmem)) hputs.1).perform
      hinsert ?_ hputs.2
    rintro index rfl
    exact hcalls index (List.mem_append_right _ List.mem_cons_self)

end

/-! ### Order in a store -/

/-- A row that may be put into an index has the index's width. -/
theorem length_of_puts {call : StoreCall} {index : Index} (h : call.Puts index row) :
    row.length = index.width := by
  cases call with
  | register index => cases h
  | drop name => cases h
  | insertIndexRow name values =>
    obtain ⟨-, -, hcheck⟩ := h
    by_contra hwidth
    simp [checkIndexRow, hwidth] at hcheck
  | insertTableRow table values =>
    obtain ⟨-, -, hentry⟩ := h
    exact length_of_indexRow? hentry

/-- One call keeps a store in order. -/
theorem Sound.perform (h : store.Sound) (call : StoreCall) : (store.perform call).Sound :=
  AllSlots.perform IndexSnapshot.Ordered.insert h (fun index _ => IndexSnapshot.ordered_nil index)
    fun _ _ => length_of_puts

/-- Every run of calls leaves every index in order. -/
theorem sound_run (calls : List StoreCall) : (run calls).Sound :=
  allSlots_run IndexSnapshot.Ordered.insert (fun index _ => IndexSnapshot.ordered_nil index)
    fun _ _ _ _ => length_of_puts

/-- Every index of a store was registered. -/
theorem index_of_find?_run {calls : List StoreCall} {name : IndexName}
    (hslot : (run calls).slots.find? name = some slot) : .register slot.index ∈ calls := by
  have hall : (run calls).AllSlots fun slot => .register slot.index ∈ calls :=
    @allSlots_run _ (fun _ _ => True) (fun h _ => h) calls (fun _ hmem => hmem)
      fun _ _ _ _ _ => trivial
  exact (hall name slot hslot).2

/-! ### Where entries come from -/

/-- The insertions that wrote to the index of a name since it was registered, after one more call.
A call that leaves the slot of the name as it is did not write to it.  A call that changes the slot
and does not insert gives the name to a new index or to none. -/
def noteInsertion (name : IndexName) (store : IndexStore) (noted : List StoreCall)
    (call : StoreCall) : List StoreCall :=
  if (store.perform call).slots.find? name = store.slots.find? name then noted
  else if call.isInsert then noted ++ [call]
  else []

/-- The insertions that wrote to the index of a name, after calls made one after the other. -/
def insertionsFrom (name : IndexName) (store : IndexStore) (noted : List StoreCall) :
    List StoreCall → List StoreCall
  | [] => noted
  | call :: rest =>
    insertionsFrom name (store.perform call) (store.noteInsertion name noted call) rest

/-- Of the calls of a run, the insertions that wrote to the index of a name since it was
registered.  An insertion of a table row that fails half way is one of them for the indexes before
the one it failed at. -/
def insertions (name : IndexName) (calls : List StoreCall) : List StoreCall :=
  insertionsFrom name empty [] calls

theorem insertions_concat (name : IndexName) (calls : List StoreCall) (call : StoreCall) :
    insertions name (calls ++ [call]) =
      (run calls).noteInsertion name (insertions name calls) call := by
  have hfrom : ∀ (store : IndexStore) (noted : List StoreCall),
      insertionsFrom name store noted (calls ++ [call]) =
        (calls.foldl perform store).noteInsertion name (insertionsFrom name store noted calls)
          call := by
    induction calls with
    | nil => exact fun _ _ => rfl
    | cons first rest ih => exact fun store noted => ih _ _
  exact hfrom empty []

/-- A call that does not insert leaves a slot as it was, or gives an empty one. -/
theorem find?_perform_of_not_isInsert {call : StoreCall} {name : IndexName}
    (hcall : call.isInsert = false) (hslot : (store.perform call).slots.find? name = some slot) :
    store.slots.find? name = some slot ∨ slot.entries = [] := by
  cases call with
  | register index =>
    rw [IndexStore.perform, IndexStore.register] at hslot
    split_ifs at hslot
    · exact .inl hslot
    · rw [Except.toOption, Option.getD_some, SortedMap.find?_insert] at hslot
      split_ifs at hslot
      · obtain rfl := Option.some.inj hslot
        exact .inr rfl
      · exact .inl hslot
  | drop dropped =>
    rw [IndexStore.perform, IndexStore.drop] at hslot
    split at hslot
    · rw [Except.toOption, Option.map_some, Option.getD_some, SortedMap.find?_erase] at hslot
      split_ifs at hslot
      exact .inl hslot
    · exact .inl hslot
  | insertIndexRow target row => cases hcall
  | insertTableRow table row => cases hcall

/-- The entries of every index come from the insertions that wrote to it. -/
theorem allSlots_putBy_run (calls : List StoreCall) :
    (run calls).AllSlots fun slot => slot.PutBy (insertions slot.index.name calls) := by
  induction calls using List.reverseRecOn with
  | nil =>
    intro name slot hfind
    simp [run, empty] at hfind
  | append_singleton calls call ih =>
    -- whatever the call is, the entries are those of before and what it puts
    have hall : (run (calls ++ [call])).AllSlots fun slot =>
        slot.PutBy (insertions slot.index.name calls ++ [call]) := by
      rw [run_concat]
      refine AllSlots.perform (Q := fun index row => call.Puts index row) (fun h hrow => ?_)
        (fun name slot hslot => ?_) (fun _ _ => IndexSnapshot.putBy_nil _ _) (fun _ _ => id)
      · exact h.insert ⟨call, List.mem_append_right _ List.mem_cons_self, hrow⟩
      · exact (ih name slot hslot).imp_right fun hput => hput.mono (List.subset_append_left ..)
    intro name slot hslot
    obtain ⟨rfl, hput⟩ := hall name slot hslot
    refine ⟨rfl, ?_⟩
    show slot.PutBy (insertions slot.index.name (calls ++ [call]))
    rw [insertions_concat, noteInsertion, ← run_concat]
    split_ifs with hsame hcall
    · exact (ih _ slot (hsame.symm.trans hslot)).2
    · exact hput
    · -- the slot was not there before, so it is that of a new index
      have hcall : call.isInsert = false := by simpa using hcall
      rw [run_concat] at hslot hsame
      rcases find?_perform_of_not_isInsert hcall hslot with hbefore | hempty
      · exact absurd (hslot.trans hbefore.symm) hsame
      · simp [IndexSnapshot.PutBy, hempty]

/-- Every entry of an index was put into it by an insertion that wrote to it since it was
registered. -/
theorem exists_puts_of_mem_entries {calls : List StoreCall} {name : IndexName}
    (hslot : (run calls).slots.find? name = some slot) (hrow : row ∈ slot.entries) :
    ∃ call ∈ insertions name calls, call.Puts slot.index row := by
  obtain ⟨rfl, hput⟩ := allSlots_putBy_run calls name slot hslot
  exact hput row hrow

end IndexStore

end TableGroups
