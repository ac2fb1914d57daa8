import TableGroups.Proofs.Cursor.Scan
import TableGroups.Proofs.Store.Fit

/-!
# Rows of a scan conform to its type

A row conforms to its type if it has one value for each field and each value fits its field
(`Row.Conforms`).  A scan tags stored entries with the row type of the index that it was planned
for, without a check.  So its rows conform because the entries fit their index, and as long as the
index that it opens has columns of the kinds of its own (`rows_conform_of_openOn`).

The scan finds the index by its name when it is opened, and by then another index may be registered
under the name.  Its entries are handed out under the type of the scan's index all the same
(`redefined_index_does_not_conform`).
-/

namespace TableGroups

/-- The row has one value for each field of its type, and each fits its field. -/
def Row.Conforms (row : Row) : Prop :=
  List.Forall₂ (fun kind value => value.fits kind) row.type.fields row.values

instance (row : Row) : Decidable row.Conforms :=
  inferInstanceAs (Decidable (List.Forall₂ _ _ _))

/-- An entry that fits an index makes a row that conforms to a type with the kinds of the index. -/
theorem Row.conforms_of_fits {type : RowType} {index : Index} {entry : List Value}
    (hkinds : (RowType.ofIndex index).fields = type.fields) (h : index.Fits entry) :
    Row.Conforms ⟨type, entry⟩ := by
  rw [Row.Conforms, ← hkinds]
  exact List.forall₂_map_left_iff.mpr h

namespace IndexScan

variable {scan : IndexScan} {slot : IndexSnapshot}

/-- What lies in the window is an entry. -/
theorem mem_entries_of_mem_window {entry : List Value} (h : entry ∈ scan.window slot) :
    entry ∈ slot.entries := by
  have hcovered : entry ∈
      (slot.entries.take (scan.windowStop slot)).drop (scan.windowStart slot) := by
    unfold window at h
    split at h
    · exact List.mem_reverse.mp h
    · exact h
  exact List.mem_of_mem_take (List.mem_of_mem_drop hcovered)

/-- A scan that opens was closed, and its store has an index of the name. -/
theorem exists_slot_of_openOn {stores : Stores} {context : QueryContext} {opened : IndexScan}
    {events : List Event} (h : Cursor.openOn stores context scan = ⟨.ok (), opened, events⟩) :
    scan.lifecycle.state = .closed ∧
      ∃ slot, (stores scan.store).snapshot scan.index.name = .ok slot := by
  have hopen : scan.openOn stores context = ⟨.ok (), opened, events⟩ := h
  unfold openOn at hopen
  split at hopen
  · cases hopen
  · next lifecycle hstart =>
    split at hopen
    · cases hopen
    · next slot hslot => exact ⟨(Lifecycle.start_eq_ok_iff.mp hstart).1, slot, hslot⟩

/-- **Rows of a scan conform to its type.**  Take a scan, opened for the first time or again, on
stores that were changed in any way since it was planned.  If the index that is now registered under
the name of the scan's index has the kinds of that index, and its entries fit it, then all rows that
the scan returns until it is closed have the scan's type and conform to it, whatever is done to the
stores meanwhile. -/
theorem rows_conform_of_openOn {stores : Stores} {context : QueryContext} {opened : IndexScan}
    {events : List Event}
    (hopen : Cursor.openOn stores context scan = ⟨.ok (), opened, events⟩)
    (hkinds : ∀ slot, (stores scan.store).snapshot scan.index.name = .ok slot →
      (RowType.ofIndex slot.index).fields = (Cursor.rowType scan).fields)
    (hfits : ∀ slot, (stores scan.store).snapshot scan.index.name = .ok slot →
      ∀ entry ∈ slot.entries, slot.index.Fits entry)
    (steps : List SessionStep) :
    ∀ row ∈ (Session.run ⟨stores, opened, []⟩ steps).rows,
      row.type = Cursor.rowType scan ∧ row.Conforms := by
  obtain ⟨hclosed, slot, hslot⟩ := exists_slot_of_openOn hopen
  obtain ⟨opened', events', hopen', hserves⟩ := serves_window context hclosed hslot
  rw [hopen] at hopen'
  cases hopen'
  intro row hrow
  obtain ⟨entry, hentry, rfl⟩ := List.mem_map.mp ((hserves steps).1.subset hrow)
  have hfit := hfits slot hslot entry (mem_entries_of_mem_window hentry)
  exact ⟨rfl, Row.conforms_of_fits (hkinds slot hslot) hfit⟩

/-- Requests for rows, between which the index that is read gets a new entry and is dropped. -/
def disturbedSteps : List SessionStep :=
  [.advance .standard,
    .change 0 (.insertIndexRow Index.linesByPrice.name
      [.int 95, .int 3, .int 10, .int 77, .int 1]),
    .advance .standard, .change 0 (.drop Index.linesByPrice.name), .advance .standard,
    .advance .standard]

/-- Three lines lie in the range when the scan is opened, and all of them conform. -/
theorem rows_conform_linesByPrice :
    ∃ scan opened events, plan 0 .linesByPrice sampleRange sampleOrdering = .ok scan ∧
      Cursor.openOn (fun _ => IndexStore.run sampleCalls) .standard scan =
        ⟨.ok (), opened, events⟩ ∧
      (Session.run ⟨fun _ => IndexStore.run sampleCalls, opened, []⟩ disturbedSteps).rows.length =
        3 ∧
      ∀ row ∈ (Session.run ⟨fun _ => IndexStore.run sampleCalls, opened, []⟩ disturbedSteps).rows,
        row.type = .ofIndex .linesByPrice ∧ row.Conforms := by
  have hplan : plan 0 .linesByPrice sampleRange sampleOrdering =
      .ok ⟨0, .linesByPrice, sampleRange, true, [], 0, .initial⟩ := by
    decide +kernel
  have hslot : (IndexStore.run sampleCalls).snapshot Index.linesByPrice.name =
      .ok ⟨.linesByPrice,
        [[.int 250, .int 3, .int 10, .int 77, .int 2], [.int 250, .int 3, .int 10, .int 78, .int 1],
          [.int 100, .int 3, .int 10, .int 77, .int 3],
          [.int 90, .int 3, .int 10, .int 77, .int 1]]⟩ := by
    decide +kernel
  obtain ⟨opened, events, hopen, hserves⟩ :=
    @serves_window ⟨0, .linesByPrice, sampleRange, true, [], 0, .initial⟩ _
      (fun _ => IndexStore.run sampleCalls) .standard rfl hslot
  obtain ⟨-, hall, hends⟩ := hserves disturbedSteps
  have hthree : (Session.run ⟨fun _ => IndexStore.run sampleCalls, opened, []⟩
      disturbedSteps).rows.length = 3 := by
    rw [hall (hends (by decide +kernel))]
    decide +kernel
  refine ⟨_, opened, events, hplan, hopen, hthree,
    rows_conform_of_openOn hopen (fun slot h => ?_) (fun slot h => ?_) disturbedSteps⟩
  · cases hslot.symm.trans h
    rfl
  · cases hslot.symm.trans h
    decide

end IndexScan

/-! ### An index defined anew -/

/-- Written notes by their numbers, under the name of the index by their texts. -/
def Index.notesByTextAnew : Index where
  name := ⟨⟨"db", "notes"⟩, "by_text"⟩
  id := none
  unique := false
  constraint := .key
  span := .table
  valid := true
  treeName := "db.notes.by_text"
  leaf := .writtenNotes
  rootDepth := 0
  keyColumns := [⟨⟨"db", "notes"⟩, ⟨"id", 0, .int, false⟩, 0, .asc⟩]
  allColumns := [⟨⟨"db", "notes"⟩, ⟨"id", 0, .int, false⟩, 0, .asc⟩]

theorem Index.built_notesByTextAnew : notesByTextAnew.Built := by
  refine ⟨{ IndexDraft.overTable .writtenNotes "by_text" false .key with
    keyColumns := notesByTextAnew.keyColumns }, rfl, ?_⟩
  decide +kernel

namespace IndexScan

/-- The notes by their texts give way to an index of the same name. -/
def redefinition : List StoreCall :=
  [.register .notesByText, .drop Index.notesByText.name, .register .notesByTextAnew,
    .insertTableRow .writtenNotes [.int 7, .text "a"]]

/-- **A row may not conform.**  A scan of the notes by their texts is planned.  When it is opened,
the index was dropped and another one registered under its name.  The entry fits the index that it
is stored under, and the scan hands it out as a row of its own type, which has a field more. -/
theorem redefined_index_does_not_conform :
    (Index.notesByText.Built ∧ Index.notesByTextAnew.Built ∧ Table.writtenNotes.Declared) ∧
      (∀ slot ∈ (IndexStore.run redefinition).slots.values,
        ∀ entry ∈ slot.entries, slot.index.Fits entry) ∧
      ∃ scan opened events, plan 0 .notesByText .unbounded [] = .ok scan ∧
        Cursor.openOn (fun _ => IndexStore.run redefinition) .standard scan =
          ⟨.ok (), opened, events⟩ ∧
        (Session.run ⟨fun _ => IndexStore.run redefinition, opened, []⟩
          [.advance .standard, .advance .standard]).rows = [⟨Cursor.rowType scan, [.int 7]⟩] ∧
        ¬ Row.Conforms ⟨Cursor.rowType scan, [.int 7]⟩ := by
  have hslot : (IndexStore.run redefinition).snapshot Index.notesByText.name =
      .ok ⟨.notesByTextAnew, [[.int 7]]⟩ := by
    decide +kernel
  obtain ⟨opened, events, hopen, hserves⟩ :=
    @serves_window ⟨0, .notesByText, .unbounded, false, [], 0, .initial⟩ _
      (fun _ => IndexStore.run redefinition) .standard rfl hslot
  -- asked twice, the scan has returned the row and said that there are no more
  obtain ⟨-, hall, hends⟩ := hserves [.advance .standard, .advance .standard]
  exact ⟨⟨Index.built_notesByText, Index.built_notesByTextAnew, Table.declared_writtenNotes⟩,
    by decide +kernel, _, opened, events, by decide +kernel, hopen, hall (hends (by decide)),
    by decide⟩

end IndexScan

end TableGroups
