import TableGroups.Proofs.Index.OverTable
import TableGroups.Proofs.Store.Insert

/-!
# A table row goes into all of its indexes or into none

An index over one table makes an index row of every row that its table takes
(`Index.Built.exists_indexRow?`).  So if the indexes that rows of a table go into were built over
this very table, an insertion is refused before anything is written, or not at all
(`Maintains.insertTableRow_fst`, `insertTableRow_atomic`).

A store finds the indexes of a table by its name alone.  An index over another table of the name may
need a column that an accepted row does not have.  The insertion then stops at that index, and the
indexes before it keep what they were given (`insertTableRow_in_part`).
-/

namespace TableGroups

/-! ### Two tables of one name -/

/-- Notes that are only numbered. -/
def Table.numberedNotes : Table :=
  .root ⟨⟨"db", "notes"⟩, [⟨"id", 0, .int, false⟩], [0]⟩

/-- Notes with a text. -/
def Table.writtenNotes : Table :=
  .root ⟨⟨"db", "notes"⟩, [⟨"id", 0, .int, false⟩, ⟨"text", 1, .text, true⟩], [0]⟩

theorem Table.declared_numberedNotes : Table.numberedNotes.Declared := by
  have hresolve : TableDeclaration.resolve ⟨⟨"db", "notes"⟩, [⟨"id", .int, false⟩], ["id"], none⟩ =
      .ok numberedNotes := rfl
  exact .resolved (by simp) hresolve

theorem Table.declared_writtenNotes : Table.writtenNotes.Declared := by
  have hresolve : TableDeclaration.resolve
      ⟨⟨"db", "notes"⟩, [⟨"id", .int, false⟩, ⟨"text", .text, true⟩], ["id"], none⟩ =
        .ok writtenNotes := rfl
  exact .resolved (by simp) hresolve

/-- Numbered notes by their numbers. -/
def Index.notesById : Index where
  name := ⟨⟨"db", "notes"⟩, "by_id"⟩
  id := none
  unique := false
  constraint := .key
  span := .table
  valid := true
  treeName := "db.notes.by_id"
  leaf := .numberedNotes
  rootDepth := 0
  keyColumns := [⟨⟨"db", "notes"⟩, ⟨"id", 0, .int, false⟩, 0, .asc⟩]
  allColumns := [⟨⟨"db", "notes"⟩, ⟨"id", 0, .int, false⟩, 0, .asc⟩]

/-- Written notes by their texts. -/
def Index.notesByText : Index where
  name := ⟨⟨"db", "notes"⟩, "by_text"⟩
  id := none
  unique := false
  constraint := .key
  span := .table
  valid := true
  treeName := "db.notes.by_text"
  leaf := .writtenNotes
  rootDepth := 0
  keyColumns := [⟨⟨"db", "notes"⟩, ⟨"text", 1, .text, true⟩, 0, .asc⟩]
  allColumns :=
    [⟨⟨"db", "notes"⟩, ⟨"text", 1, .text, true⟩, 0, .asc⟩,
      ⟨⟨"db", "notes"⟩, ⟨"id", 0, .int, false⟩, 1, .asc⟩]

theorem Index.built_notesById : notesById.Built := by
  refine ⟨{ IndexDraft.overTable .numberedNotes "by_id" false .key with
    keyColumns := notesById.keyColumns }, rfl, ?_⟩
  decide +kernel

theorem Index.built_notesByText : notesByText.Built := by
  refine ⟨{ IndexDraft.overTable .writtenNotes "by_text" false .key with
    keyColumns := notesByText.keyColumns }, rfl, ?_⟩
  decide +kernel

namespace IndexStore

/-- An index of each of the two tables of one name. -/
def noteCalls : List StoreCall :=
  [.register .notesById, .register .notesByText]

end IndexStore

/-! ### Insertions into the indexes of a table -/

/-- **An index over one table makes a row of every row that its table takes.** -/
theorem Index.Built.exists_indexRow? {index : Index} {row : List Value} (h : index.Built)
    (hsound : index.leaf.Sound) (hspan : index.span = .table)
    (hrow : checkTableRow index.leaf row = .ok ()) :
    ∃ entry, (Composition.ofIndex index).indexRow? row = some entry := by
  rw [h.indexRow?_eq hsound hspan]
  refine exists_mapM_eq_some fun column hcolumn => ?_
  have hfound := (h.column_of_table hsound hspan column hcolumn).2
  obtain ⟨value, hvalue, -⟩ := exists_fits_of_checkTableRow hrow hfound
  rw [hvalue]
  rfl

namespace IndexStore

variable {store : IndexStore} {slots : List IndexSnapshot} {table : Table} {row : List Value}
  {e : StoreError}

/-- Writing succeeds if every slot can make an entry of the row. -/
theorem writeTableRow_ok {tableName : TableName}
    (h : ∀ slot ∈ slots, ∃ entry, (Composition.ofIndex slot.index).indexRow? row = some entry) :
    (writeTableRow tableName row slots store).1 = .ok slots.length := by
  induction slots generalizing store with
  | nil => rfl
  | cons slot rest ih =>
    rw [List.forall_mem_cons] at h
    obtain ⟨entry, hentry⟩ := h.1
    rw [writeTableRow]
    simp only [hentry, ih h.2]
    rfl

/-- The indexes that rows of the table go into were built over this very table. -/
def Maintains (store : IndexStore) (table : Table) : Prop :=
  ∀ name slot, store.slots.find? name = some slot → slot.index.isOver table.name →
    slot.index.Built ∧ slot.index.leaf.Declared ∧ slot.index.leaf = table

/-- A row is inserted if the table takes it, into every index over the table. -/
theorem Maintains.insertTableRow_fst (h : store.Maintains table) (row : List Value) :
    (store.insertTableRow table row).1 =
      (checkTableRow table row).map fun _ => (store.slotsOver table.name).length := by
  rw [insertTableRow]
  cases hcheck : checkTableRow table row with
  | error e => rfl
  | ok _ =>
    refine writeTableRow_ok fun slot hslot => ?_
    obtain ⟨name, hfind⟩ := exists_find?_of_mem_slotsOver hslot
    have hover : slot.index.isOver table.name := (List.mem_filter.mp hslot).2
    obtain ⟨hbuilt, hdeclared, hleaf⟩ := h name slot hfind hover
    exact hbuilt.exists_indexRow? hdeclared.sound (Index.isOver_iff.mp hover).1 (hleaf ▸ hcheck)

/-- If a row is refused, nothing is written. -/
theorem Maintains.insertTableRow_snd (h : store.Maintains table)
    (herror : (store.insertTableRow table row).1 = .error e) :
    checkTableRow table row = .error e ∧ (store.insertTableRow table row).2 = store := by
  rw [h.insertTableRow_fst] at herror
  cases hcheck : checkTableRow table row with
  | error e' =>
    rw [hcheck] at herror
    cases herror
    exact ⟨rfl, by rw [insertTableRow, hcheck]⟩
  | ok _ =>
    rw [hcheck] at herror
    cases herror

/-- **Insertions are atomic where names are unique.**  Take a store after any calls, and a table
such that the registered indexes over a table of its name are over this very table.  An insertion
that fails was refused by the table, and leaves the store as it was. -/
theorem insertTableRow_atomic {calls : List StoreCall}
    (hcalls : ∀ index, .register index ∈ calls → index.Built ∧ index.leaf.Declared)
    (hnames : ∀ name slot, (run calls).snapshot name = .ok slot →
      slot.index.isOver table.name → slot.index.leaf = table)
    (herror : ((run calls).insertTableRow table row).1 = .error e) :
    checkTableRow table row = .error e ∧ ((run calls).insertTableRow table row).2 = run calls := by
  have hmaintains : (run calls).Maintains table := by
    intro name slot hslot hover
    obtain ⟨hbuilt, hdeclared⟩ := hcalls slot.index (index_of_find?_run hslot)
    exact ⟨hbuilt, hdeclared, hnames name slot (snapshot_eq_ok_iff.mpr hslot) hover⟩
  exact hmaintains.insertTableRow_snd herror

/-- The index of the other table of the name is dropped, and then a numbered note is inserted. -/
def numberedNoteCalls : List StoreCall :=
  noteCalls ++ [.drop Index.notesByText.name, .insertTableRow .numberedNotes [.int 7]]

/-- A note without a number is refused, and the note before it stays the only one. -/
theorem insertTableRow_atomic_notes :
    ((run numberedNoteCalls).insertTableRow .numberedNotes [.null]).1 =
        .error (.tableField ⟨"db", "notes"⟩ ⟨"id", 0, .int, false⟩ .null) ∧
      ((run numberedNoteCalls).insertTableRow .numberedNotes [.null]).2 =
        run numberedNoteCalls := by
  have herror : ((run numberedNoteCalls).insertTableRow .numberedNotes [.null]).1 =
      .error (.tableField ⟨"db", "notes"⟩ ⟨"id", 0, .int, false⟩ .null) := by
    decide +kernel
  have hregister : ∀ index, .register index ∈ numberedNoteCalls →
      index = .notesById ∨ index = .notesByText := by
    intro index hmem
    simpa [numberedNoteCalls, noteCalls] using hmem
  have hdropped : (run numberedNoteCalls).slots.find? Index.notesByText.name = none := by
    decide +kernel
  refine ⟨herror, (insertTableRow_atomic (fun index hmem => ?_) (fun name slot hslot _ => ?_)
    herror).2⟩
  · rcases hregister index hmem with rfl | rfl
    · exact ⟨Index.built_notesById, Table.declared_numberedNotes⟩
    · exact ⟨Index.built_notesByText, Table.declared_writtenNotes⟩
  · have hfind := snapshot_eq_ok_iff.mp hslot
    rcases hregister slot.index (index_of_find?_run hfind) with hindex | hindex
    · rw [hindex]
      rfl
    · -- this index was dropped
      rw [← (sound_run _ name slot hfind).1, hindex, hdropped] at hfind
      cases hfind

/-- **A row may be inserted in part.**  An index over numbered notes and one over written notes are
registered.  A numbered note is accepted and goes into the first, but the second needs a text: the
insertion fails, and its entry stays. -/
theorem insertTableRow_in_part :
    (Index.notesById.Built ∧ Table.numberedNotes.Declared) ∧
      (Index.notesByText.Built ∧ Table.writtenNotes.Declared) ∧
      ((run noteCalls).insertTableRow .numberedNotes [.int 7]).1 =
        .error (.notMaintainable Index.notesByText.name Table.numberedNotes.name) ∧
      (run noteCalls).snapshot Index.notesById.name = .ok ⟨.notesById, []⟩ ∧
      ((run noteCalls).insertTableRow .numberedNotes [.int 7]).2.snapshot Index.notesById.name =
        .ok ⟨.notesById, [[.int 7]]⟩ := by
  refine ⟨⟨Index.built_notesById, Table.declared_numberedNotes⟩,
    ⟨Index.built_notesByText, Table.declared_writtenNotes⟩, ?_, ?_, ?_⟩
  · decide +kernel
  · decide +kernel
  · decide +kernel

end IndexStore

end TableGroups
