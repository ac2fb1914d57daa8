import TableGroups.Proofs.Store.Maintain

/-!
# Entries fit their index

An entry fits its index if it has one value for each column and each value fits its column
(`Index.Fits`).  A scan relies on it: it hands out entries as rows of the index without a check.

Rows come into an index in two ways.  A row of the index is checked against the index itself
(`checkIndexRow_eq_ok_iff`).  A row of a table is checked against that table, and the index takes
its fields by position, so what the index makes of it fits if the table gives these positions the
kinds of the index's columns (`Built.fits_of_agreesWith`).  The index's own leaf does
(`Built.agreesWith_leaf`).  An entry comes from a call that wrote to the index since it was
registered, so all entries fit if the tables of these calls do (`entries_fit_run`).

A store finds the indexes of a table by its name alone.  Another table of the name may have a column
of another kind at the position, and then a row that it takes leaves an entry that does not fit
(`insertTableRow_misfit`).
-/

namespace TableGroups

namespace Index

/-- The row has one value for each column of the index, and each fits its column. -/
def Fits (index : Index) (row : List Value) : Prop :=
  List.Forall₂ (fun column value => value.fits column.column.kind) index.allColumns row

instance (index : Index) (row : List Value) : Decidable (index.Fits row) :=
  inferInstanceAs (Decidable (List.Forall₂ _ _ _))

variable {index : Index} {table : Table} {row entry : List Value}

/-- The check of index rows accepts the rows that fit. -/
theorem checkIndexRow_eq_ok_iff : checkIndexRow index row = .ok () ↔ index.Fits row := by
  rw [Fits, List.forall₂_iff_zip, checkIndexRow, width]
  constructor
  · intro h
    split at h
    next hwidth =>
      split at h
      · cases h
      next hnone =>
      refine ⟨hwidth.symm, fun {column value} hmem => ?_⟩
      simpa using List.find?_eq_none.mp hnone _ hmem
    · cases h
  · rintro ⟨hwidth, hfits⟩
    rw [if_pos hwidth.symm]
    split
    · next hsome =>
      have hmisfit := List.find?_some hsome
      simp [hfits (List.mem_of_find?_eq_some hsome)] at hmisfit
    · rfl

/-- The table has columns of the right kinds where the index takes its fields from. -/
def AgreesWith (index : Index) (table : Table) : Prop :=
  ∀ column ∈ index.allColumns, ∀ found ∈ table.columns[column.column.position]?,
    found.kind = column.column.kind

instance (index : Index) (table : Table) : Decidable (index.AgreesWith table) :=
  inferInstanceAs (Decidable (∀ column ∈ _, ∀ found ∈ _, _))

/-- An index over one table agrees with the table that it was built over. -/
theorem Built.agreesWith_leaf (h : index.Built) (hsound : index.leaf.Sound)
    (hspan : index.span = .table) : index.AgreesWith index.leaf := by
  intro column hcolumn found hfound
  rw [(h.column_of_table hsound hspan column hcolumn).2, Option.mem_some_iff] at hfound
  rw [hfound]

/-- What an index makes of a row of a table that it agrees with fits the index. -/
theorem Built.fits_of_agreesWith (h : index.Built) (hsound : index.leaf.Sound)
    (hspan : index.span = .table) (hagrees : index.AgreesWith table)
    (hrow : checkTableRow table row = .ok ())
    (hentry : (Composition.ofIndex index).indexRow? row = some entry) : index.Fits entry := by
  rw [h.indexRow?_eq hsound hspan, mapM_eq_some_iff] at hentry
  rw [Fits, List.forall₂_iff_zip] at *
  refine ⟨hentry.1, fun {column value} hmem => ?_⟩
  have hvalue : row[column.column.position]? = some value := hentry.2 hmem
  -- the value stands in the row, so the table that took the row has a column there
  have hlength : row.length = table.columns.length := by
    by_contra hne
    simp [checkTableRow, hne] at hrow
  have hposition := (List.getElem?_eq_some_iff.mp hvalue).1
  have hfound := List.getElem?_eq_getElem (hlength ▸ hposition)
  obtain ⟨value', hvalue', hfits⟩ := exists_fits_of_checkTableRow hrow hfound
  rw [hvalue, Option.some.injEq] at hvalue'
  rw [hvalue', ← hagrees column (List.of_mem_zip hmem).1 _ hfound]
  exact hfits

end Index

/-! ### A third table of the name of the notes -/

/-- Notes that have names instead of numbers. -/
def Table.namedNotes : Table :=
  .root ⟨⟨"db", "notes"⟩, [⟨"id", 0, .text, false⟩], [0]⟩

theorem Table.declared_namedNotes : Table.namedNotes.Declared := by
  have hresolve : TableDeclaration.resolve ⟨⟨"db", "notes"⟩, [⟨"id", .text, false⟩], ["id"], none⟩ =
      .ok namedNotes := rfl
  exact .resolved (by simp) hresolve

/-- Named notes by their names. -/
def Index.notesByName : Index where
  name := ⟨⟨"db", "notes"⟩, "by_id"⟩
  id := none
  unique := false
  constraint := .key
  span := .table
  valid := true
  treeName := "db.notes.by_id"
  leaf := .namedNotes
  rootDepth := 0
  keyColumns := [⟨⟨"db", "notes"⟩, ⟨"id", 0, .text, false⟩, 0, .asc⟩]
  allColumns := [⟨⟨"db", "notes"⟩, ⟨"id", 0, .text, false⟩, 0, .asc⟩]

theorem Index.built_notesByName : notesByName.Built := by
  refine ⟨{ IndexDraft.overTable .namedNotes "by_id" false .key with
    keyColumns := notesByName.keyColumns }, rfl, ?_⟩
  decide +kernel

/-! ### The entries of a store -/

namespace IndexStore

/-- **Entries fit their index.**  Take any calls that register built indexes only, some of which may
fail.  After them every entry of an index has as many values as the index has columns.  Each value
fits its column if every table with a row that was written to the index since it was registered has
columns of the right kinds where the index takes its fields from. -/
theorem entries_fit_run {calls : List StoreCall} {name : IndexName} {slot : IndexSnapshot}
    (hcalls : ∀ index, .register index ∈ calls → index.Built ∧ index.leaf.Declared)
    (hslot : (run calls).snapshot name = .ok slot) :
    (∀ entry ∈ slot.entries, entry.length = slot.index.width) ∧
      ((∀ table row, .insertTableRow table row ∈ insertions name calls →
          slot.index.isOver table.name → slot.index.AgreesWith table) →
        ∀ entry ∈ slot.entries, slot.index.Fits entry) := by
  refine ⟨((sound_run calls).of_snapshot hslot).2.width, fun hagrees entry hentry => ?_⟩
  have hfind := snapshot_eq_ok_iff.mp hslot
  obtain ⟨hbuilt, hdeclared⟩ := hcalls slot.index (index_of_find?_run hfind)
  obtain ⟨call, hcall, hput⟩ := exists_puts_of_mem_entries hfind hentry
  cases call with
  | register index => cases hput
  | drop name => cases hput
  | insertIndexRow name row => exact Index.checkIndexRow_eq_ok_iff.mp hput.2.2
  | insertTableRow table row =>
    obtain ⟨hover, hcheck, hrow⟩ := hput
    exact hbuilt.fits_of_agreesWith hdeclared.sound (Index.isOver_iff.mp hover).1
      (hagrees table row hcall hover) hcheck hrow

/-- Notes of two tables of one name, where the named note is inserted in part, and rows of an index,
one of them refused because its text is a number. -/
def mixedNoteCalls : List StoreCall :=
  noteCalls ++
    [.insertTableRow .writtenNotes [.int 1, .text "a"],
      .insertTableRow .namedNotes [.text "b"],
      .insertIndexRow Index.notesByText.name [.null, .int 9],
      .insertIndexRow Index.notesByText.name [.int 3, .int 9]]

/-- The named note did not get into the index of texts, whose entries fit. -/
theorem entries_fit_mixedNotes :
    ¬ Index.notesByText.AgreesWith .namedNotes ∧
    insertions Index.notesByText.name mixedNoteCalls =
      [.insertTableRow .writtenNotes [.int 1, .text "a"],
        .insertIndexRow Index.notesByText.name [.null, .int 9]] ∧
    ∃ slot, (run mixedNoteCalls).snapshot Index.notesByText.name = .ok slot ∧
      slot.entries = [[.null, .int 9], [.text "a", .int 1]] ∧
      (∀ entry ∈ slot.entries, entry.length = slot.index.width) ∧
      ∀ entry ∈ slot.entries, slot.index.Fits entry := by
  have hinsertions : insertions Index.notesByText.name mixedNoteCalls =
      [.insertTableRow .writtenNotes [.int 1, .text "a"],
        .insertIndexRow Index.notesByText.name [.null, .int 9]] := by
    decide +kernel
  have hslot : (run mixedNoteCalls).snapshot Index.notesByText.name =
      .ok ⟨.notesByText, [[.null, .int 9], [.text "a", .int 1]]⟩ := by
    decide +kernel
  have hcalls : ∀ index, .register index ∈ mixedNoteCalls → index.Built ∧ index.leaf.Declared := by
    intro index hmem
    have hindex : index = .notesById ∨ index = .notesByText := by
      simpa [mixedNoteCalls, noteCalls] using hmem
    rcases hindex with rfl | rfl
    · exact ⟨Index.built_notesById, Table.declared_numberedNotes⟩
    · exact ⟨Index.built_notesByText, Table.declared_writtenNotes⟩
  obtain ⟨hwidth, hfits⟩ := entries_fit_run hcalls hslot
  refine ⟨by decide, hinsertions, _, hslot, rfl, hwidth, hfits fun table row hmem _ => ?_⟩
  obtain ⟨rfl, -⟩ : table = .writtenNotes ∧ row = [.int 1, .text "a"] := by
    simpa [hinsertions] using hmem
  decide

/-- **An entry may be a misfit.**  An index over named notes is registered.  A numbered note is
accepted by its own table and goes into the index, which is over a table of the same name, and the
number does not fit the column of names. -/
theorem insertTableRow_misfit :
    (Index.notesByName.Built ∧ Table.namedNotes.Declared) ∧ Table.numberedNotes.Declared ∧
      ((run [.register .notesByName]).insertTableRow .numberedNotes [.int 7]).1 = .ok 1 ∧
      (run [.register .notesByName, .insertTableRow .numberedNotes [.int 7]]).snapshot
        Index.notesByName.name = .ok ⟨.notesByName, [[.int 7]]⟩ ∧
      ¬ Index.notesByName.Fits [.int 7] := by
  refine ⟨⟨Index.built_notesByName, Table.declared_namedNotes⟩, Table.declared_numberedNotes,
    ?_, ?_, ?_⟩
  · decide +kernel
  · decide +kernel
  · decide

end IndexStore

end TableGroups
