import TableGroups.Proofs.Store.Maintain

/-!
# What an index holds after a run

Of the calls of a run some succeed (`accepted`).  After any run in which each name stands for one
table, the slot of an index is what the accepted calls since its registration make of an empty one
(`find?_run`, `StoreCall.exists_since`): its entries are, in index order, the rows that these calls
put into the index (`contents_run`).

One equation per call carries this: a call that succeeds acts on each name for itself, and a call
that fails changes nothing (`find?_perform`).  Whether an insertion succeeds depends on the
registered indexes alone, and entries that compare equal are the same, so the order of insertions
does not show (`snapshot_run_of_perm`).
-/

namespace TableGroups

/-! ### What a call does to one name -/

namespace StoreCall

/-- The row that a call puts into an index if it succeeds: a row of the index as it is, and of a row
of its table what the index makes of it. -/
def rowFor? (index : Index) : StoreCall → Option (List Value)
  | .insertIndexRow name row => if name = index.name then some row else none
  | .insertTableRow table row =>
    if index.isOver table.name then (Composition.ofIndex index).indexRow? row else none
  | _ => none

/-- A slot with the row that a call puts into its index. -/
def addTo (call : StoreCall) (slot : IndexSnapshot) : IndexSnapshot :=
  (call.rowFor? slot.index).elim slot slot.insert

/-- What a call that succeeds makes of the slot of a name. -/
def onSlot (call : StoreCall) (name : IndexName) (kept : Option IndexSnapshot) :
    Option IndexSnapshot :=
  match call with
  | .register index => if index.name = name then some ⟨index, []⟩ else kept
  | .drop dropped => if dropped = name then none else kept
  | _ => kept.map call.addTo

/-- The call registers or drops the index of a name. -/
def resets (name : IndexName) : StoreCall → Bool
  | .register index => index.name == name
  | .drop dropped => dropped == name
  | _ => false

/-- The call uses the names of tables for these tables, and registers built indexes only. -/
def Respects (tables : TableName → Table) : StoreCall → Prop
  | .register index =>
    index.Built ∧ index.leaf.Declared ∧ tables index.leaf.name = index.leaf
  | .insertTableRow table _ => tables table.name = table
  | _ => True

variable {call : StoreCall} {name : IndexName} {slot : IndexSnapshot}

@[simp] theorem addTo_index (call : StoreCall) (slot : IndexSnapshot) :
    (call.addTo slot).index = slot.index := by
  unfold addTo
  cases call.rowFor? slot.index <;> rfl

/-- A slot comes from a registration or from an earlier slot of the name. -/
theorem onSlot_eq_some {kept : Option IndexSnapshot} (h : call.onSlot name kept = some slot) :
    (call = .register slot.index ∧ slot.index.name = name ∧ slot.entries = []) ∨
      (call.resets name = false ∧ ∃ before, kept = some before ∧ slot = call.addTo before) := by
  cases call with
  | register index =>
    rw [onSlot] at h
    split_ifs at h with hname
    · obtain rfl := Option.some.inj h
      exact .inl ⟨rfl, hname, rfl⟩
    · exact .inr ⟨beq_false_of_ne hname, slot, h, rfl⟩
  | drop dropped =>
    rw [onSlot] at h
    split_ifs at h with hname
    exact .inr ⟨beq_false_of_ne hname, slot, h, rfl⟩
  | insertIndexRow target row =>
    obtain ⟨before, hbefore, heq⟩ := Option.map_eq_some_iff.mp h
    exact .inr ⟨rfl, before, hbefore, heq.symm⟩
  | insertTableRow table row =>
    obtain ⟨before, hbefore, heq⟩ := Option.map_eq_some_iff.mp h
    exact .inr ⟨rfl, before, hbefore, heq.symm⟩

theorem onSlot_of_isInsert (h : call.isInsert) (kept : Option IndexSnapshot) :
    call.onSlot name kept = kept.map call.addTo := by
  cases call with
  | register index => cases h
  | drop dropped => cases h
  | insertIndexRow target row => rfl
  | insertTableRow table row => rfl

/-- What calls make of a name that has a slot in the end is what those since its registration make
of an empty slot. -/
theorem exists_since {calls : List StoreCall}
    (h : calls.foldl (fun kept call => call.onSlot name kept) none = some slot) :
    ∃ before since, calls = before ++ .register slot.index :: since ∧ slot.index.name = name ∧
      (∀ call ∈ since, call.resets name = false) ∧
      slot = since.foldl (fun slot call => call.addTo slot) ⟨slot.index, []⟩ := by
  induction calls using List.reverseRecOn generalizing slot with
  | nil => cases h
  | append_singleton calls call ih =>
    rw [List.foldl_concat] at h
    rcases onSlot_eq_some h with ⟨rfl, hname, hentries⟩ | ⟨hresets, earlier, hearlier, rfl⟩
    · obtain ⟨index, entries⟩ := slot
      obtain rfl : entries = [] := hentries
      exact ⟨calls, [], rfl, hname, by simp, rfl⟩
    · obtain ⟨before, since, rfl, hname, hsince, hslot⟩ := ih hearlier
      refine ⟨before, since ++ [call], ?_, ?_, ?_, ?_⟩
      · rw [addTo_index, List.append_assoc, List.cons_append]
      · rw [addTo_index, hname]
      · rw [List.forall_mem_append, List.forall_mem_singleton]
        exact ⟨hsince, hresets⟩
      · rw [List.foldl_concat, addTo_index, ← hslot]

/-- Calls add their rows to a slot, and lose none. -/
theorem perm_foldl_addTo (calls : List StoreCall) (slot : IndexSnapshot) :
    (calls.foldl (fun slot call => call.addTo slot) slot).entries.Perm
      (slot.entries ++ calls.filterMap (rowFor? slot.index)) := by
  induction calls generalizing slot with
  | nil => simp
  | cons call rest ih =>
    rw [List.foldl_cons]
    refine (ih (call.addTo slot)).trans ?_
    rw [addTo_index, addTo]
    cases hrow : call.rowFor? slot.index with
    | none => rw [List.filterMap_cons_none hrow, Option.elim_none]
    | some row =>
      rw [List.filterMap_cons_some hrow, Option.elim_some]
      exact ((slot.insert_perm row).append_right _).trans List.perm_middle.symm

theorem index_foldl_addTo (calls : List StoreCall) (slot : IndexSnapshot) :
    (calls.foldl (fun slot call => call.addTo slot) slot).index = slot.index := by
  induction calls generalizing slot with
  | nil => rfl
  | cons call rest ih => rw [List.foldl_cons, ih, addTo_index]

end StoreCall

/-- Slots of one index that are in order are the same if they have the same entries. -/
theorem IndexSnapshot.Ordered.eq_of_perm {a b : IndexSnapshot} (ha : a.Ordered) (hb : b.Ordered)
    (hindex : a.index = b.index) (h : a.entries.Perm b.entries) : a = b := by
  obtain ⟨index, entries⟩ := a
  obtain ⟨index', entries'⟩ := b
  obtain rfl : index = index' := hindex
  have heq : entries = entries' := by
    refine h.eq_of_pairwise (fun r s hr hs hrs hsr => ?_) ha.sorted hb.sorted
    -- rows that do not come after each other compare equal, and then they are the same
    have hr : r.length = index.width := ha.width r hr
    have hs : s.length = index.width := hb.width s hs
    have hsame : index.compareRows r s = .eq := by
      rw [Index.compareRows_swap] at hsr
      cases hcompare : index.compareRows r s <;> simp_all
    exact eq_of_compareAlong_eq (by simpa using hr) (by simpa using hs) hsame
  rw [heq]

namespace IndexStore

/-! ### One call -/

/-- Whether a call succeeds. -/
def accepts (store : IndexStore) : StoreCall → Bool
  | .register index => (store.register index).isOk
  | .drop name => (store.drop name).isOk
  | .insertIndexRow name row => (store.insertIndexRow name row).isOk
  | .insertTableRow table row => (store.insertTableRow table row).1.isOk

variable {store : IndexStore} {call : StoreCall} {name : IndexName} {table : Table}
  {row : List Value}

/-- A row that is accepted by a store was accepted by its table. -/
theorem checkTableRow_of_accepts (h : store.accepts (.insertTableRow table row)) :
    checkTableRow table row = .ok () := by
  rw [accepts, insertTableRow] at h
  cases hcheck : checkTableRow table row with
  | error e =>
    rw [hcheck] at h
    cases h
  | ok _ => rfl

/-- A table row does not register an index. -/
theorem find?_insertTableRow_of_none (hsound : store.Sound)
    (hnone : store.slots.find? name = none) :
    (store.insertTableRow table row).2.slots.find? name = none := by
  rw [insertTableRow]
  split
  · exact hnone
  · rw [find?_writeTableRow_of_forall_ne, hnone]
    intro slot hslot hname
    obtain ⟨other, hfind⟩ := exists_find?_of_mem_slotsOver hslot
    rw [← (hsound other slot hfind).1, hname, hnone] at hfind
    cases hfind

/-- A table row that is inserted goes, for each name, into the index or not. -/
theorem find?_insertTableRow_of_accepts (hsound : store.Sound)
    (h : store.accepts (.insertTableRow table row)) :
    (store.insertTableRow table row).2.slots.find? name =
      (store.slots.find? name).map (StoreCall.addTo (.insertTableRow table row)) := by
  cases hslot : store.slots.find? name with
  | none => rw [find?_insertTableRow_of_none hsound hslot, Option.map_none]
  | some slot =>
    cases hinsert : store.insertTableRow table row with
    | mk written after =>
    cases written with
    | error e =>
      rw [accepts, hinsert] at h
      cases h
    | ok n =>
      obtain ⟨-, heffect⟩ := insertTableRow_ok hsound hinsert hslot
      rw [Option.map_some, StoreCall.addTo, StoreCall.rowFor?]
      split_ifs at heffect ⊢
      · obtain ⟨entry, hentry, hfind⟩ := heffect
        rw [hentry, Option.elim_some, hfind]
      · rw [Option.elim_none, heffect]

/-- A row of an index goes into this index. -/
theorem find?_insertIndexRow (hsound : store.Sound) {target : IndexName} {after : IndexStore}
    (h : store.insertIndexRow target row = .ok after) :
    after.slots.find? name =
      (store.slots.find? name).map (StoreCall.addTo (.insertIndexRow target row)) := by
  obtain ⟨slot, hslot, -, rfl⟩ := insertIndexRow_ok h
  have hname := (hsound target slot hslot).1
  by_cases heq : name = target
  · rw [heq, hslot, Option.map_some, StoreCall.addTo, StoreCall.rowFor?, if_pos hname.symm,
      Option.elim_some, write, hname, SortedMap.find?_insert_self]
  · rw [write, hname, SortedMap.find?_insert_of_ne _ _ heq]
    cases hother : store.slots.find? name with
    | none => rfl
    | some other =>
      have hne : target ≠ other.index.name := fun htarget =>
        heq ((hsound name other hother).1.symm.trans htarget.symm)
      rw [Option.map_some, StoreCall.addTo, StoreCall.rowFor?, if_neg hne, Option.elim_none]

/-- **One call.**  A call that succeeds acts on each name for itself, and a call that fails changes
nothing. -/
theorem find?_perform (hsound : store.Sound)
    (hmaintains : ∀ table row, call = .insertTableRow table row → store.Maintains table) :
    (store.perform call).slots.find? name =
      if store.accepts call then call.onSlot name (store.slots.find? name)
      else store.slots.find? name := by
  cases call with
  | register index =>
    rw [perform, accepts, register]
    by_cases hcontains : store.slots.contains index.name
    · rw [if_pos hcontains]
      rfl
    · rw [if_neg hcontains]
      show (store.slots.insert index.name ⟨index, []⟩).find? name =
        StoreCall.onSlot (.register index) name (store.slots.find? name)
      rw [SortedMap.find?_insert, StoreCall.onSlot]
      simp only [Std.LawfulEqCmp.compare_eq_iff_eq, @eq_comm _ name]
  | drop dropped =>
    rw [perform, accepts, drop]
    cases hslot : store.slots.find? dropped with
    | none => rfl
    | some slot =>
      show (store.slots.erase dropped).find? name =
        StoreCall.onSlot (.drop dropped) name (store.slots.find? name)
      rw [SortedMap.find?_erase, StoreCall.onSlot]
      simp only [Std.LawfulEqCmp.compare_eq_iff_eq]
  | insertIndexRow target row =>
    rw [perform, accepts]
    cases hinsert : store.insertIndexRow target row with
    | error e => rfl
    | ok after => exact find?_insertIndexRow hsound hinsert
  | insertTableRow table row =>
    rw [perform]
    by_cases haccepts : store.accepts (.insertTableRow table row)
    · rw [if_pos haccepts]
      exact find?_insertTableRow_of_accepts hsound haccepts
    · rw [if_neg haccepts]
      cases hwritten : (store.insertTableRow table row).1 with
      | ok n =>
        rw [accepts, hwritten] at haccepts
        exact absurd rfl haccepts
      | error e => rw [((hmaintains table row rfl).insertTableRow_snd hwritten).2]

/-! ### Whole runs -/

/-- Of calls made one after the other, those that succeed. -/
def acceptedFrom (store : IndexStore) : List StoreCall → List StoreCall
  | [] => []
  | call :: rest =>
    (if store.accepts call then [call] else []) ++ acceptedFrom (store.perform call) rest

/-- Of the calls of a run, those that succeed. -/
def accepted (calls : List StoreCall) : List StoreCall :=
  acceptedFrom empty calls

variable {tables : TableName → Table} {calls : List StoreCall}

theorem acceptedFrom_concat (store : IndexStore) (calls : List StoreCall) (call : StoreCall) :
    acceptedFrom store (calls ++ [call]) = acceptedFrom store calls ++
      if (calls.foldl perform store).accepts call then [call] else [] := by
  induction calls generalizing store with
  | nil =>
    rw [List.nil_append, acceptedFrom, acceptedFrom, acceptedFrom, List.append_nil]
    rfl
  | cons first rest ih =>
    rw [List.cons_append, acceptedFrom, ih, acceptedFrom, List.append_assoc, List.foldl_cons]

theorem accepted_concat (calls : List StoreCall) (call : StoreCall) :
    accepted (calls ++ [call]) =
      accepted calls ++ if (run calls).accepts call then [call] else [] :=
  acceptedFrom_concat empty calls call

/-- A call that succeeds in a run is one of its calls, and some store accepts it. -/
theorem exists_accepts_of_mem_accepted (h : call ∈ accepted calls) :
    call ∈ calls ∧ ∃ store : IndexStore, store.accepts call := by
  induction calls using List.reverseRecOn with
  | nil => cases h
  | append_singleton calls last ih =>
    rw [accepted_concat, List.mem_append] at h
    rcases h with h | h
    · exact ⟨List.mem_append_left _ (ih h).1, (ih h).2⟩
    · split_ifs at h with haccepts
      · obtain rfl := List.mem_singleton.mp h
        exact ⟨List.mem_append_right _ h, _, haccepts⟩
      · cases h

/-- If names stand for tables, every table is maintained after a run. -/
theorem maintains_run (hcalls : ∀ call ∈ calls, call.Respects tables)
    (htable : tables table.name = table) : (run calls).Maintains table := by
  intro name slot hslot hover
  obtain ⟨hbuilt, hdeclared, hleaf⟩ := hcalls _ (index_of_find?_run hslot)
  refine ⟨hbuilt, hdeclared, ?_⟩
  rw [← hleaf, (Index.isOver_iff.mp hover).2, htable]

/-- One more call of a run. -/
theorem find?_run_concat (hcalls : ∀ call ∈ calls, call.Respects tables)
    (hcall : call.Respects tables) :
    (run (calls ++ [call])).slots.find? name =
      if (run calls).accepts call then call.onSlot name ((run calls).slots.find? name)
      else (run calls).slots.find? name := by
  rw [run_concat]
  refine find?_perform (sound_run calls) fun table row heq => maintains_run hcalls ?_
  subst heq
  exact hcall

/-- **A run.**  The slot of a name is what the accepted calls make of nothing. -/
theorem find?_run (hcalls : ∀ call ∈ calls, call.Respects tables) (name : IndexName) :
    (run calls).slots.find? name =
      (accepted calls).foldl (fun kept call => call.onSlot name kept) none := by
  induction calls using List.reverseRecOn with
  | nil => rfl
  | append_singleton calls call ih =>
    rw [List.forall_mem_append, List.forall_mem_singleton] at hcalls
    rw [find?_run_concat hcalls.1 hcalls.2, accepted_concat, ih hcalls.1]
    split_ifs
    · rw [List.foldl_concat]
    · rw [List.append_nil]

/-- A table row that was accepted has a row in every index over its table. -/
theorem exists_indexRow?_of_mem_accepted (hcalls : ∀ call ∈ calls, call.Respects tables)
    {slot : IndexSnapshot} (hslot : (run calls).slots.find? name = some slot)
    (hrow : .insertTableRow table row ∈ accepted calls) (hover : slot.index.isOver table.name) :
    ∃ entry, (Composition.ofIndex slot.index).indexRow? row = some entry := by
  obtain ⟨hmem, _, haccepts⟩ := exists_accepts_of_mem_accepted hrow
  have htable : tables table.name = table := hcalls _ hmem
  obtain ⟨hbuilt, hdeclared, hleaf⟩ := maintains_run hcalls htable name slot hslot hover
  exact hbuilt.exists_indexRow? hdeclared.sound (Index.isOver_iff.mp hover).1
    (hleaf ▸ checkTableRow_of_accepts haccepts)

/-! ### The number of entries written -/

theorem length_of_writeTableRow {tableName : TableName} {slots : List IndexSnapshot} {n : Nat}
    (h : (writeTableRow tableName row slots store).1 = .ok n) : n = slots.length := by
  induction slots generalizing store n with
  | nil =>
    cases h
    rfl
  | cons slot rest ih =>
    rw [writeTableRow] at h
    split at h
    · cases h
    next entry hentry =>
    cases hrest : (writeTableRow tableName row rest (store.write slot entry)).1 with
    | error e => simp [hrest, Except.map] at h
    | ok m =>
      simp only [hrest, Except.map, Except.ok.injEq] at h
      rw [← h, ih hrest, List.length_cons]

/-- An insertion returns the number of indexes that it has changed. -/
theorem written_eq_countP (hsound : store.Sound) {after : IndexStore} {n : Nat}
    (h : store.insertTableRow table row = (.ok n, after)) :
    n = store.slots.keys.countP fun name => after.snapshot name ≠ store.snapshot name := by
  have hlength : n = (store.slotsOver table.name).length := by
    have hwritten : (store.insertTableRow table row).1 = .ok n := by rw [h]
    rw [insertTableRow] at hwritten
    split at hwritten
    · cases hwritten
    · exact length_of_writeTableRow hwritten
  rw [hlength, slotsOver, ← List.countP_eq_length_filter, ← hsound.map_name_values,
    List.countP_map]
  apply List.countP_congr
  intro slot hslot
  obtain ⟨name, hfind⟩ := SortedMap.mem_values_iff.mp hslot
  obtain ⟨-, heffect⟩ := insertTableRow_ok hsound h hfind
  rw [Function.comp_apply, (hsound name slot hfind).1, decide_eq_true_eq,
    snapshot_eq_ok_iff.mpr hfind]
  split at heffect
  · next hover =>
    -- one entry more makes another snapshot
    obtain ⟨entry, -, hafter⟩ := heffect
    refine iff_of_true hover ?_
    rw [snapshot_eq_ok_iff.mpr hafter, Ne, Except.ok.injEq]
    intro hsame
    have hmore := (slot.insert_perm entry).length_eq
    rw [hsame, List.length_cons] at hmore
    omega
  · next hover =>
    refine iff_of_false hover ?_
    rw [snapshot_eq_ok_iff.mpr heffect]
    exact fun hne => hne rfl

/-! ### The order of insertions -/

/-- Whether a row of an index is accepted depends on the index alone. -/
theorem accepts_insertIndexRow (target : IndexName) :
    store.accepts (.insertIndexRow target row) =
      ((store.slots.find? target).map (·.index)).any fun index =>
        (checkIndexRow index row).isOk := by
  rw [accepts, insertIndexRow, snapshot]
  cases store.slots.find? target with
  | none => rfl
  | some slot =>
    show (checkIndexRow slot.index row >>= fun _ => _).isOk = (checkIndexRow slot.index row).isOk
    cases checkIndexRow slot.index row <;> rfl

/-- Whether a row of a maintained table is accepted depends on the table alone. -/
theorem Maintains.accepts_insertTableRow (h : store.Maintains table) :
    store.accepts (.insertTableRow table row) = (checkTableRow table row).isOk := by
  rw [accepts, h.insertTableRow_fst]
  cases checkTableRow table row <;> rfl

/-- Stores of the same indexes accept the same insertions. -/
theorem accepts_eq_of_index_eq {other : IndexStore} (hcall : call.isInsert)
    (hindex : ∀ name, (store.slots.find? name).map (·.index) =
      (other.slots.find? name).map (·.index))
    (hmaintains : ∀ table row, call = .insertTableRow table row →
      store.Maintains table ∧ other.Maintains table) :
    store.accepts call = other.accepts call := by
  cases call with
  | register index => cases hcall
  | drop dropped => cases hcall
  | insertIndexRow target row =>
    rw [accepts_insertIndexRow, accepts_insertIndexRow, hindex target]
  | insertTableRow table row =>
    obtain ⟨hstore, hother⟩ := hmaintains table row rfl
    rw [hstore.accepts_insertTableRow, hother.accepts_insertTableRow]

/-- **Insertions after a run.**  They add their rows to the slots that are there, each as the store
accepted it in the beginning. -/
theorem find?_run_append (hcalls : ∀ call ∈ calls, call.Respects tables)
    {inserts : List StoreCall} (hinserts : ∀ call ∈ inserts, call.isInsert ∧ call.Respects tables)
    (name : IndexName) :
    (run (calls ++ inserts)).slots.find? name =
      ((run calls).slots.find? name).map fun slot =>
        (inserts.filter (run calls).accepts).foldl (fun slot call => call.addTo slot) slot := by
  induction inserts using List.reverseRecOn generalizing name with
  | nil => simp
  | append_singleton inserts call ih =>
    rw [List.forall_mem_append, List.forall_mem_singleton] at hinserts
    obtain ⟨hbefore, hinsert, hrespects⟩ := hinserts
    have hall : ∀ call ∈ calls ++ inserts, call.Respects tables :=
      List.forall_mem_append.mpr ⟨hcalls, fun call hmem => (hbefore call hmem).2⟩
    have hsame : (run (calls ++ inserts)).accepts call = (run calls).accepts call := by
      refine accepts_eq_of_index_eq hinsert (fun other => ?_) fun table row heq => ?_
      · rw [ih hbefore other, Option.map_map]
        congr 1
        funext slot
        exact StoreCall.index_foldl_addTo _ slot
      · subst heq
        exact ⟨maintains_run hall hrespects, maintains_run hcalls hrespects⟩
    rw [← List.append_assoc, find?_run_concat hall hrespects, hsame, ih hbefore name,
      StoreCall.onSlot_of_isInsert hinsert, List.filter_append, List.filter_cons, List.filter_nil]
    split_ifs
    · rw [Option.map_map]
      congr 1
      funext slot
      rw [List.foldl_concat]
      rfl
    · rw [List.append_nil]

/-- **The order of insertions does not show.** -/
theorem snapshot_run_of_perm (hcalls : ∀ call ∈ calls, call.Respects tables)
    {inserts inserts' : List StoreCall} (hperm : inserts.Perm inserts')
    (hinserts : ∀ call ∈ inserts, call.isInsert ∧ call.Respects tables) (name : IndexName) :
    (run (calls ++ inserts)).snapshot name = (run (calls ++ inserts')).snapshot name := by
  have hinserts' : ∀ call ∈ inserts', call.isInsert ∧ call.Respects tables :=
    fun call hmem => hinserts call (hperm.mem_iff.mpr hmem)
  have hfirst := find?_run_append hcalls hinserts name
  have hsecond := find?_run_append hcalls hinserts' name
  cases hslot : (run calls).slots.find? name with
  | none =>
    rw [hslot, Option.map_none] at hfirst hsecond
    rw [snapshot, snapshot, hfirst, hsecond]
  | some slot =>
    rw [hslot, Option.map_some] at hfirst hsecond
    rw [snapshot_eq_ok_iff.mpr hfirst, snapshot_eq_ok_iff.mpr hsecond, Except.ok.injEq]
    refine (sound_run _ _ _ hfirst).2.eq_of_perm (sound_run _ _ _ hsecond).2 ?_ ?_
    · rw [StoreCall.index_foldl_addTo, StoreCall.index_foldl_addTo]
    · refine (StoreCall.perm_foldl_addTo _ slot).trans ?_
      refine List.Perm.trans ?_ (StoreCall.perm_foldl_addTo _ slot).symm
      exact ((hperm.filter _).filterMap _).append_left _

/-- **What a store holds.**  Take calls that use each name for one table, some of which may fail.

After them every index has its entries in index order, and they are the rows accepted for it since
it was last registered: the rows inserted into it and, for an index over one table, what it makes of
the rows inserted into its table, each of which has its entry.

Inserting a table row then returns the number of indexes that it changes.

If nothing but insertions follows, every index ends with the same entries in the same order,
whatever the order of the insertions. -/
theorem contents_run (hcalls : ∀ call ∈ calls, call.Respects tables) :
    (∀ name slot, (run calls).snapshot name = .ok slot →
      slot.entries.Pairwise (fun a b => slot.index.compareRows b a ≠ .lt) ∧
      ∃ before since, accepted calls = before ++ .register slot.index :: since ∧
        slot.index.name = name ∧ (∀ call ∈ since, call.resets name = false) ∧
        slot.entries.Perm (since.filterMap (·.rowFor? slot.index)) ∧
        ∀ table row, .insertTableRow table row ∈ since → slot.index.isOver table.name →
          ∃ entry, (Composition.ofIndex slot.index).indexRow? row = some entry) ∧
    (∀ table row n after, (run calls).insertTableRow table row = (.ok n, after) →
      n = (run calls).slots.keys.countP fun name =>
        after.snapshot name ≠ (run calls).snapshot name) ∧
    (∀ inserts inserts' : List StoreCall, inserts.Perm inserts' →
      (∀ call ∈ inserts, call.isInsert ∧ call.Respects tables) →
      ∀ name, (run (calls ++ inserts)).snapshot name =
        (run (calls ++ inserts')).snapshot name) := by
  refine ⟨fun name slot hsnapshot => ?_, fun table row n after hwritten => ?_, ?_⟩
  · have hslot := snapshot_eq_ok_iff.mp hsnapshot
    have hfold := find?_run hcalls name
    rw [hslot] at hfold
    obtain ⟨before, since, haccepted, hname, hresets, hsince⟩ :=
      StoreCall.exists_since hfold.symm
    refine ⟨?_, before, since, haccepted, hname, hresets, ?_, fun table row hrow hover => ?_⟩
    · refine ((sound_run calls).of_snapshot hsnapshot).2.sorted.imp fun {a b} hle hlt => ?_
      rw [Index.compareRows_swap, hlt] at hle
      cases hle
    · have hperm := StoreCall.perm_foldl_addTo since ⟨slot.index, []⟩
      rw [← hsince] at hperm
      exact hperm
    · refine exists_indexRow?_of_mem_accepted hcalls hslot ?_ hover
      rw [haccepted]
      exact List.mem_append_right _ (List.mem_cons_of_mem _ hrow)
  · exact written_eq_countP (sound_run calls) hwritten
  · exact fun inserts inserts' hperm hinserts => snapshot_run_of_perm hcalls hperm hinserts

/-- The table of each name, where there are lines and shops. -/
def shopTables (name : TableName) : Table :=
  if name = Table.lines.name then .lines else .shops

/-- An index of lines that was dropped and registered again.  Since then four calls fail: a second
registration, a row that is too short, a line without a number, and a drop of another index. -/
def lineHistory : List StoreCall :=
  [.register .linesByPrice,
    .insertIndexRow Index.linesByPrice.name [.int 120, .int 3, .int 10, .int 70, .int 1],
    .drop Index.linesByPrice.name,
    .register .linesByPrice,
    .insertTableRow .lines [.int 2, .int 250, .int 77, .int 3, .int 10],
    .register .linesByPrice,
    .insertIndexRow Index.linesByPrice.name [.int 120],
    .insertTableRow .lines [.null, .int 250, .int 77, .int 3, .int 10],
    .insertTableRow .shops [.int 10, .int 3, .null],
    .drop ⟨Table.lines.name, "by_sale"⟩,
    .insertIndexRow Index.linesByPrice.name [.int 250, .int 3, .int 10, .int 77, .int 1],
    .insertTableRow .lines [.int 3, .null, .int 77, .int 3, .int 10]]

/-- Three lines were accepted, the one without a price comes last, and two more lines may come in
either order. -/
theorem contents_run_lines :
    (∃ slot, (run lineHistory).snapshot Index.linesByPrice.name = .ok slot ∧
      slot.entries = [[.int 250, .int 3, .int 10, .int 77, .int 1],
        [.int 250, .int 3, .int 10, .int 77, .int 2], [.null, .int 3, .int 10, .int 77, .int 3]] ∧
      slot.entries.Pairwise (fun a b => slot.index.compareRows b a ≠ .lt) ∧
      ∃ before since, accepted lineHistory = before ++ .register slot.index :: since ∧
        slot.entries.Perm (since.filterMap (·.rowFor? slot.index))) ∧
    ((run lineHistory).slots.keys.countP fun name =>
      ((run lineHistory).insertTableRow .lines
        [.int 4, .int 90, .int 77, .int 3, .int 10]).2.snapshot name ≠
          (run lineHistory).snapshot name) = 1 ∧
    (run (lineHistory ++ [.insertTableRow .lines [.int 4, .int 90, .int 77, .int 3, .int 10],
        .insertTableRow .lines [.int 5, .int 90, .int 77, .int 3, .int 10]])).snapshot
          Index.linesByPrice.name =
      (run (lineHistory ++ [.insertTableRow .lines [.int 5, .int 90, .int 77, .int 3, .int 10],
        .insertTableRow .lines [.int 4, .int 90, .int 77, .int 3, .int 10]])).snapshot
          Index.linesByPrice.name := by
  have hregister : StoreCall.Respects shopTables (.register .linesByPrice) :=
    ⟨Index.built_linesByPrice, Table.declared_lines, rfl⟩
  have hcalls : ∀ call ∈ lineHistory, call.Respects shopTables := by
    simp only [lineHistory, List.forall_mem_cons]
    exact ⟨hregister, trivial, trivial, hregister, rfl, hregister, trivial, rfl, rfl, trivial,
      trivial, rfl, by simp⟩
  obtain ⟨hentries, hwritten, horder⟩ := contents_run hcalls
  refine ⟨?_, ?_, ?_⟩
  · have hslot : (run lineHistory).snapshot Index.linesByPrice.name = .ok ⟨.linesByPrice,
        [[.int 250, .int 3, .int 10, .int 77, .int 1],
          [.int 250, .int 3, .int 10, .int 77, .int 2],
          [.null, .int 3, .int 10, .int 77, .int 3]]⟩ := by
      decide +kernel
    obtain ⟨hsorted, before, since, haccepted, -, -, hperm, -⟩ := hentries _ _ hslot
    exact ⟨_, hslot, rfl, hsorted, before, since, haccepted, hperm⟩
  · have hone : ((run lineHistory).insertTableRow .lines
        [.int 4, .int 90, .int 77, .int 3, .int 10]).1 = .ok 1 := by
      decide +kernel
    exact (hwritten _ _ 1 _ (Prod.ext hone rfl)).symm
  · refine horder _ _ (List.Perm.swap ..) ?_ _
    simp only [List.forall_mem_cons]
    exact ⟨⟨rfl, rfl⟩, ⟨rfl, rfl⟩, by simp⟩

end IndexStore

end TableGroups
