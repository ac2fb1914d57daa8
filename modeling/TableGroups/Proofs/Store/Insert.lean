import Mathlib.Data.List.Basic
import TableGroups.Proofs.Store.Run

/-!
# Inserting table rows

A table row that is inserted goes into every index over its table and leaves the other indexes
alone (`insertTableRow_ok`).  So after a sequence of successful insertions an index holds, besides
what it held before, what it makes of the inserted rows of its table (`insertRows_spec`).
-/

namespace TableGroups

/-- A row that is accepted has a fitting value in every column. -/
theorem exists_fits_of_checkTableRow {table : Table} {row : List Value}
    (h : checkTableRow table row = .ok ()) {p : Nat} {column : Column}
    (hcolumn : table.columns[p]? = some column) :
    ∃ value, row[p]? = some value ∧ value.fits column.kind := by
  unfold checkTableRow at h
  split at h
  next hlength =>
    split at h
    · cases h
    next hnone =>
    obtain ⟨hp, rfl⟩ := List.getElem?_eq_some_iff.mp hcolumn
    have hvalue := List.getElem?_eq_getElem (hlength ▸ hp)
    have hzip : (table.columns[p], row[p]) ∈ table.columns.zip row :=
      List.mem_of_getElem? (List.getElem?_zip_eq_some.mpr ⟨hcolumn, hvalue⟩)
    have haccepts := List.find?_eq_none.mp hnone _ hzip
    simp only [Bool.not_eq_true', Bool.not_eq_false, Column.accepts, Bool.and_eq_true] at haccepts
    exact ⟨_, hvalue, haccepts.1⟩
  · cases h

namespace IndexStore

variable {store after : IndexStore} {slot : IndexSnapshot} {slots : List IndexSnapshot}
  {table : Table} {name : IndexName} {row : List Value} {n : Nat}

/-- Writing to some slots leaves the others alone. -/
theorem find?_writeTableRow_of_forall_ne {tableName : TableName}
    (h : ∀ slot ∈ slots, slot.index.name ≠ name) :
    (writeTableRow tableName row slots store).2.slots.find? name = store.slots.find? name := by
  induction slots generalizing store with
  | nil => rfl
  | cons slot rest ih =>
    rw [List.forall_mem_cons] at h
    rw [writeTableRow]
    split
    · rfl
    · rw [ih h.2, write, SortedMap.find?_insert_of_ne _ _ h.1.symm]

/-- Writing that succeeds leaves in each of the slots one more entry, made of the row. -/
theorem find?_writeTableRow_of_mem {tableName : TableName}
    (hnames : (slots.map (·.index.name)).Nodup)
    (h : writeTableRow tableName row slots store = (.ok n, after)) (hslot : slot ∈ slots) :
    ∃ entry, (Composition.ofIndex slot.index).indexRow? row = some entry ∧
      after.slots.find? slot.index.name = some (slot.insert entry) := by
  induction slots generalizing store n with
  | nil => cases hslot
  | cons first rest ih =>
    rw [List.map_cons, List.nodup_cons] at hnames
    rw [writeTableRow] at h
    split at h
    · cases h
    next entry hentry =>
    cases hrest : writeTableRow tableName row rest (store.write first entry) with
    | mk written last =>
    cases written with
    | error e => simp [hrest, Except.map] at h
    | ok m =>
      simp only [hrest, Prod.mk.injEq] at h
      obtain ⟨-, rfl⟩ := h
      rcases List.mem_cons.mp hslot with rfl | hmem
      · have hothers : ∀ other ∈ rest, other.index.name ≠ slot.index.name := by
          intro other hother heq
          exact hnames.1 (heq ▸ List.mem_map_of_mem hother)
        have hkept : (writeTableRow tableName row rest (store.write slot entry)).2.slots.find?
            slot.index.name = (store.write slot entry).slots.find? slot.index.name :=
          find?_writeTableRow_of_forall_ne hothers
        rw [hrest] at hkept
        exact ⟨entry, hentry, hkept.trans (SortedMap.find?_insert_self ..)⟩
      · exact ih hnames.2 hrest hmem

/-- The names that a store knows are those of its indexes. -/
theorem Sound.map_name_values (h : store.Sound) :
    store.slots.values.map (·.index.name) = store.slots.keys := by
  rw [SortedMap.values, SortedMap.keys, List.map_map]
  apply List.map_congr_left
  intro entry hentry
  exact (h entry.1 entry.2 (SortedMap.find?_eq_some_iff.mpr hentry)).1

/-- The slots over a table have distinct names. -/
theorem Sound.nodup_slotsOver (h : store.Sound) (tableName : TableName) :
    ((store.slotsOver tableName).map (·.index.name)).Nodup := by
  have hnodup := store.slots.nodup_keys
  rw [← h.map_name_values] at hnodup
  exact hnodup.sublist ((List.filter_sublist ..).map _)

/-- **One insertion.**  A table row that is inserted fits its table, and goes into an index exactly
if the index is over the table. -/
theorem insertTableRow_ok (hsound : store.Sound)
    (h : store.insertTableRow table row = (.ok n, after))
    (hslot : store.slots.find? name = some slot) :
    checkTableRow table row = .ok () ∧
      if slot.index.isOver table.name then
        ∃ entry, (Composition.ofIndex slot.index).indexRow? row = some entry ∧
          after.slots.find? name = some (slot.insert entry)
      else after.slots.find? name = some slot := by
  rw [insertTableRow] at h
  split at h
  · cases h
  next hcheck =>
  refine ⟨hcheck, ?_⟩
  have hname := (hsound name slot hslot).1
  split
  · next hover =>
    have hmem : slot ∈ store.slotsOver table.name :=
      List.mem_filter.mpr ⟨SortedMap.mem_values_iff.mpr ⟨name, hslot⟩, hover⟩
    rw [← hname]
    exact find?_writeTableRow_of_mem (hsound.nodup_slotsOver table.name) h hmem
  · next hover =>
    have hothers : ∀ other ∈ store.slotsOver table.name, other.index.name ≠ name := by
      intro other hother heq
      obtain ⟨hvalues, hother⟩ := List.mem_filter.mp hother
      obtain ⟨otherName, hfind⟩ := SortedMap.mem_values_iff.mp hvalues
      rw [← (hsound otherName other hfind).1, heq, hslot, Option.some.injEq] at hfind
      subst hfind
      exact hover hother
    have hkept : (writeTableRow table.name row (store.slotsOver table.name) store).2.slots.find?
        name = store.slots.find? name := find?_writeTableRow_of_forall_ne hothers
    rw [h] at hkept
    rw [hkept, hslot]

/-- Insert rows of tables one after the other, as long as none fails. -/
def insertRows : List (Table × List Value) → IndexStore → Option IndexStore
  | [], store => some store
  | (table, row) :: rest, store =>
    match store.insertTableRow table row with
    | (.ok _, after) => insertRows rest after
    | (.error _, _) => none

/-- **Insertions add up.**  After rows were inserted, an index holds besides its former entries
what it makes of the rows of its table. -/
theorem insertRows_spec {inserts : List (Table × List Value)} (hsound : store.Sound)
    (h : insertRows inserts store = some after) (hslot : store.slots.find? name = some slot) :
    after.Sound ∧ (∀ insert ∈ inserts, checkTableRow insert.1 insert.2 = .ok ()) ∧
      ∃ last entries, after.slots.find? name = some last ∧ last.index = slot.index ∧
        (inserts.filter fun insert => slot.index.isOver insert.1.name).mapM
          (fun insert => (Composition.ofIndex slot.index).indexRow? insert.2) = some entries ∧
        last.entries.Perm (slot.entries ++ entries) := by
  induction inserts generalizing store slot with
  | nil =>
    cases h
    exact ⟨hsound, by simp, slot, [], hslot, rfl, rfl, by simp⟩
  | cons insert rest ih =>
    obtain ⟨table, row⟩ := insert
    rw [insertRows] at h
    split at h
    next n between hinsert =>
      have hbetween : between.Sound := by
        have hperform := hsound.perform (.insertTableRow table row)
        rwa [perform, hinsert] at hperform
      obtain ⟨hcheck, heffect⟩ := insertTableRow_ok hsound hinsert hslot
      split at heffect
      · next hover =>
        obtain ⟨entry, hentry, hfind⟩ := heffect
        obtain ⟨hafter, hchecks, last, entries, hlast, hindex, hentries, hperm⟩ :=
          ih hbetween h hfind
        refine ⟨hafter, List.forall_mem_cons.mpr ⟨hcheck, hchecks⟩, last, entry :: entries, hlast,
          hindex, ?_, ?_⟩
        · rw [List.filter_cons, if_pos hover]
          exact mapM_eq_some_iff.mpr (.cons hentry (mapM_eq_some_iff.mp hentries))
        · have hinserted := slot.insert_perm entry
          refine (hperm.trans (hinserted.append_right entries)).trans ?_
          exact List.perm_middle.symm
      · next hover =>
        obtain ⟨hafter, hchecks, last, entries, hlast, hindex, hentries, hperm⟩ :=
          ih hbetween h heffect
        refine ⟨hafter, List.forall_mem_cons.mpr ⟨hcheck, hchecks⟩, last, entries, hlast,
          hindex, ?_, hperm⟩
        rw [List.filter_cons, if_neg hover]
        exact hentries
    · cases h

/-- Of inserted rows those of one table. -/
def rowsOf (name : TableName) (inserts : List (Table × List Value)) : List (List Value) :=
  (inserts.filter (·.1.name == name)).map (·.2)

/-- If all rows were accepted, those of one table fit it. -/
theorem checkTableRow_of_mem_rowsOf {inserts : List (Table × List Value)}
    (hchecks : ∀ insert ∈ inserts, checkTableRow insert.1 insert.2 = .ok ())
    (htable : ∀ insert ∈ inserts, insert.1.name = table.name → insert.1 = table) :
    ∀ row ∈ rowsOf table.name inserts, checkTableRow table row = .ok () := by
  intro row hrow
  obtain ⟨insert, hinsert, rfl⟩ := List.mem_map.mp hrow
  obtain ⟨hmem, hname⟩ := List.mem_filter.mp hinsert
  rw [← htable insert hmem (beq_iff_eq.mp hname)]
  exact hchecks insert hmem

/-- Two indexes that are registered first have no entries yet. -/
theorem find?_run_register {first second : Index} (hne : first.name ≠ second.name) :
    (run [.register first, .register second]).slots.find? first.name = some ⟨first, []⟩ ∧
      (run [.register first, .register second]).slots.find? second.name = some ⟨second, []⟩ := by
  have hfirst : run [.register first] = ⟨SortedMap.empty.insert first.name ⟨first, []⟩⟩ := rfl
  have hfree : ¬ (run [.register first]).slots.contains second.name := by
    rw [hfirst, SortedMap.contains, SortedMap.find?_insert_of_ne _ _ hne.symm]
    simp
  have hrun : run [.register first, .register second] =
      ⟨(run [.register first]).slots.insert second.name ⟨second, []⟩⟩ := by
    show (run [.register first]).perform (.register second) = _
    rw [perform, register, if_neg hfree]
    rfl
  rw [hrun, SortedMap.find?_insert_self, SortedMap.find?_insert_of_ne _ _ hne, hfirst,
    SortedMap.find?_insert_self]
  exact ⟨rfl, rfl⟩

end IndexStore

end TableGroups
