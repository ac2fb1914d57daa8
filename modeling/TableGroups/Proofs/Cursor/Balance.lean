import Mathlib.Data.Sigma.Basic
import TableGroups.Proofs.Cursor.Accounts
import TableGroups.Proofs.Cursor.Unison

/-!
# The events of many trees balance

Several trees may be in use at a time.  A `CursorPool` has their cursors, the stores, and everything
that was reported, and `CursorPool.run` makes calls on any of the roots in any order.

If all cursors are closed in the beginning and all contexts record metrics, then the events balance
after every call (`QueryTree.metrics_balance`): of every kind as many cursors are open as were
opened and not closed, and every closing tells the right number of rows.  To say which number is
right, the trees are run beside trees all of whose cursors have meters (`QueryShape.meter`), which
makes no difference to anything else.  The books of a tree have a page for each of its cursors
(`QueryShape.map_books`), and each call reports what it changes in the books of its tree.
-/

namespace TableGroups

/-! ### Cursors of a family of types -/

section

variable {ι : Type} {F G : ι → Type} [∀ i, Cursor (F i)] [∀ i, Cursor (G i)]

instance instCursorSigma : Cursor ((i : ι) × F i) where
  rowType c := Cursor.rowType c.2
  state c := Cursor.state c.2
  openOn stores context c := (Cursor.openOn stores context c.2).map (Sigma.mk c.1)
  advance context c := (Cursor.advance context c.2).map (Sigma.mk c.1)
  close c := (⟨c.1, (Cursor.close c.2).1⟩, (Cursor.close c.2).2)
  remaining c := Cursor.remaining c.2
  remaining_advance {context c after row events} h := by
    cases hcall : Cursor.advance context c.2 with
    | mk result cursor events =>
    simp only [hcall, Call.map, Call.mk.injEq] at h
    obtain ⟨rfl, rfl, -⟩ := h
    exact Cursor.remaining_advance hcall

theorem Cursor.Mirrors.sigma {f : (i : ι) → F i → G i} (hf : ∀ i, Mirrors (f i)) :
    Mirrors (Sigma.map id f : (i : ι) × F i → (i : ι) × G i) where
  state c := (hf c.1).state c.2
  openOn stores context := by
    rintro ⟨i, c⟩
    show (Cursor.openOn stores context (f i c)).map (Sigma.mk i) = _
    rw [(hf i).openOn]
    rfl
  advance context := by
    rintro ⟨i, c⟩
    show (Cursor.advance context (f i c)).map (Sigma.mk i) = _
    rw [(hf i).advance]
    rfl
  close := by
    rintro ⟨i, c⟩
    show (Sigma.mk i (Cursor.close (f i c)).1, (Cursor.close (f i c)).2) = _
    rw [(hf i).close]
    rfl

/-- The ledger of cursors that have one for each type. -/
def Cursor.Ledger.sigma (ledger : (i : ι) → Ledger (F i)) : Ledger ((i : ι) × F i) where
  books c := (ledger c.1).books c.2
  Good c := (ledger c.1).Good c.2

theorem Cursor.Ledger.Balances.sigma {ledger : (i : ι) → Ledger (F i)}
    (h : ∀ i, (ledger i).Balances) : (Ledger.sigma ledger).Balances where
  openOn {stores context c after result events} hrecords hc hcall := by
    cases hcall
    exact (h c.1).openOn hrecords hc rfl
  advance {context c after result events} hc hcall := by
    cases hcall
    exact (h c.1).advance hc rfl
  close {c} hc := (h c.1).close hc

end

namespace Watching

variable {γ : Type}

/-- The ledger of the cursor below. -/
def ledger (below : Cursor.Ledger γ) : Cursor.Ledger (Watching γ) where
  books c := below.books c.cursor
  Good c := below.Good c.cursor

theorem balances [Cursor γ] {below : Cursor.Ledger γ} (h : below.Balances) :
    (ledger below).Balances where
  openOn hrecords hc hcall := h.openOn hrecords hc (exists_of_openOn hcall)
  advance hc hcall := h.advance hc (exists_of_advance hcall)
  close hc := h.close hc

end Watching

/-! ### Trees with meters -/

namespace QueryShape

/-- The type of the cursors of a shape when all of them have meters. -/
def MeteredCarrier : QueryShape → Type
  | .rows => Metered RowsCursor
  | .scan => Metered IndexScan
  | .intersection left right => Metered (Intersection left.MeteredCarrier right.MeteredCarrier)
  | .watching input => Watching input.MeteredCarrier

instance instMeteredCursor : (shape : QueryShape) → Cursor shape.MeteredCarrier
  | .rows => inferInstanceAs (Cursor (Metered RowsCursor))
  | .scan => inferInstanceAs (Cursor (Metered IndexScan))
  | .intersection left right =>
    let _ := instMeteredCursor left
    let _ := instMeteredCursor right
    inferInstanceAs (Cursor (Metered (Intersection left.MeteredCarrier right.MeteredCarrier)))
  | .watching input =>
    let _ := instMeteredCursor input
    inferInstanceAs (Cursor (Watching input.MeteredCarrier))

/-- The tree with a new meter on each of its cursors. -/
def meter : (shape : QueryShape) → shape.Carrier → shape.MeteredCarrier
  | .rows, (c : RowsCursor) => Metered.fit c
  | .scan, (c : IndexScan) => Metered.fit c
  | .intersection left right, (m : Intersection left.Carrier right.Carrier) =>
    Metered.fit (m.map left.meter right.meter)
  | .watching input, (c : Watching input.Carrier) => c.map input.meter

/-- The tree without its meters. -/
def erase : (shape : QueryShape) → shape.MeteredCarrier → shape.Carrier
  | .rows, (c : Metered RowsCursor) => c.cursor
  | .scan, (c : Metered IndexScan) => c.cursor
  | .intersection left right,
    (c : Metered (Intersection left.MeteredCarrier right.MeteredCarrier)) =>
    c.cursor.map left.erase right.erase
  | .watching input, (c : Watching input.MeteredCarrier) => c.map input.erase

theorem erase_meter (shape : QueryShape) (c : shape.Carrier) : shape.erase (shape.meter c) = c := by
  induction shape with
  | rows => rfl
  | scan => rfl
  | intersection left right ihLeft ihRight =>
    show Intersection.map left.erase right.erase (Intersection.map left.meter right.meter c) = c
    simp only [Intersection.map, Input.map, ihLeft, ihRight]
    rfl
  | watching input ih =>
    show Watching.map input.erase (Watching.map input.meter c) = c
    simp only [Watching.map, ih]
    rfl

/-- Meters make no difference to a tree. -/
theorem mirrors_erase (shape : QueryShape) : Cursor.Mirrors shape.erase := by
  induction shape with
  | rows => exact Metered.mirrors
  | scan => exact Metered.mirrors
  | intersection left right ihLeft ihRight =>
    exact (Intersection.mirrors ihLeft ihRight).comp Metered.mirrors
  | watching input ih => exact Watching.mirrors ih

/-- The books of all cursors of a tree. -/
def ledger : (shape : QueryShape) → Cursor.Ledger shape.MeteredCarrier
  | .rows => Metered.ledger RowsCursor.account
  | .scan => Metered.ledger IndexScan.account
  | .intersection left right => Metered.ledger (Intersection.account left.ledger right.ledger)
  | .watching input => Watching.ledger input.ledger

theorem balances (shape : QueryShape) : shape.ledger.Balances := by
  induction shape with
  | rows => exact Metered.balances RowsCursor.kept
  | scan => exact Metered.balances IndexScan.kept
  | intersection left right ihLeft ihRight =>
    exact Metered.balances (Intersection.kept ihLeft ihRight)
  | watching input ih => exact Watching.balances ih

/-- In the beginning nothing was noted in the books. -/
theorem fresh_meter (shape : QueryShape) {c : shape.Carrier} (hclosed : shape.All (· = .closed) c) :
    (shape.ledger.books (shape.meter c)).Fresh ∧ shape.ledger.Good (shape.meter c) := by
  induction shape with
  | rows => exact Metered.fresh_fit hclosed (List.forall_mem_nil _) (.closed hclosed)
  | scan => exact Metered.fresh_fit hclosed (List.forall_mem_nil _) (.closed hclosed)
  | intersection left right ihLeft ihRight =>
    obtain ⟨hstate, hl, hr⟩ := hclosed
    obtain ⟨hfreshLeft, hgoodLeft⟩ := ihLeft hl
    obtain ⟨hfreshRight, hgoodRight⟩ := ihRight hr
    exact Metered.fresh_fit hstate (List.forall_mem_append.mpr ⟨hfreshLeft, hfreshRight⟩)
      (Intersection.good_of_closed ⟨hgoodLeft, hgoodRight⟩ hstate)
  | watching input ih => exact ih hclosed

/-- The kinds and states of all cursors of a tree, the root first and left before right. -/
def cursors : (shape : QueryShape) → shape.Carrier → List (CursorKind × CursorState)
  | .rows, (c : RowsCursor) => [(.rows, c.lifecycle.state)]
  | .scan, (c : IndexScan) => [(.indexScan, c.lifecycle.state)]
  | .intersection left right, (m : Intersection left.Carrier right.Carrier) =>
    (.intersection, m.lifecycle.state) ::
      (left.cursors m.left.cursor ++ right.cursors m.right.cursor)
  | .watching input, (c : Watching input.Carrier) => input.cursors c.cursor

/-- How many cursors of a kind are open. -/
def openCount (kind : CursorKind) (cursors : List (CursorKind × CursorState)) : Nat :=
  cursors.countP fun cursor => cursor.1 = kind ∧ cursor.2.isOpen

/-- The books have a page for each cursor, which says whether it is open. -/
theorem map_books (shape : QueryShape) (c : shape.MeteredCarrier) :
    (shape.ledger.books c).map (fun page => (page.kind, page.isOpen)) =
      (shape.cursors (shape.erase c)).map fun cursor => (cursor.1, cursor.2.isOpen) := by
  induction shape with
  | rows => rfl
  | scan => rfl
  | intersection left right ihLeft ihRight =>
    show _ :: List.map _ (left.ledger.books _ ++ right.ledger.books _) =
      _ :: List.map _ (left.cursors _ ++ right.cursors _)
    rw [List.map_append, List.map_append, ihLeft, ihRight]
    rfl
  | watching input ih => exact ih _

end QueryShape

/-! ### Pools -/

/-- What may happen to the cursors of a pool and their stores. -/
inductive PoolStep where
  /-- A call on the cursor at a place, if there is one. -/
  | call (place : Nat) (context : QueryContext) (call : CursorCall)
  /-- A call on one of the stores. -/
  | change (store : StoreId) (call : StoreCall)

/-- The context of a call records metrics. -/
def PoolStep.RecordsMetrics : PoolStep → Prop
  | .call _ context _ => context.config.recordMetrics
  | .change _ _ => True

/-- Cursors among their stores. -/
structure CursorPool (γ : Type) where
  stores : Stores
  cursors : List γ
  /-- Everything that was reported, the first event first. -/
  log : List Event

namespace CursorPool

variable {γ δ : Type}

/-- A pool in which nothing has happened. -/
def start (stores : Stores) (cursors : List γ) : CursorPool γ :=
  ⟨stores, cursors, []⟩

/-- The pool with its cursors mapped. -/
def map (f : γ → δ) (pool : CursorPool γ) : CursorPool δ :=
  ⟨pool.stores, pool.cursors.map f, pool.log⟩

variable [Cursor γ] [Cursor δ]

/-- The pool after one step. -/
def step (pool : CursorPool γ) : PoolStep → CursorPool γ
  | .call place context call =>
    match pool.cursors[place]? with
    | none => pool
    | some c =>
      let done := Cursor.perform pool.stores context c call
      { pool with
        cursors := pool.cursors.set place done.cursor
        log := pool.log ++ done.events }
  | .change store call =>
    { pool with
      stores := fun other =>
        if other = store then (pool.stores other).perform call else pool.stores other }

/-- The pool after steps made one after the other. -/
def run (pool : CursorPool γ) (steps : List PoolStep) : CursorPool γ :=
  steps.foldl step pool

/-- It does not matter whether the cursors are mapped before or after a step. -/
theorem step_map {f : γ → δ} (hf : Cursor.Mirrors f) (pool : CursorPool γ) (step : PoolStep) :
    (pool.map f).step step = (pool.step step).map f := by
  cases step with
  | change store call => rfl
  | call place context call =>
    simp only [CursorPool.step, map, List.getElem?_map]
    cases pool.cursors[place]? with
    | none => rfl
    | some c =>
      simp only [Option.map_some, hf.perform, Call.map, List.map_set]

theorem run_map {f : γ → δ} (hf : Cursor.Mirrors f) (pool : CursorPool γ)
    (steps : List PoolStep) : (pool.map f).run steps = (pool.run steps).map f := by
  induction steps generalizing pool with
  | nil => rfl
  | cons step rest ih =>
    show ((pool.map f).step step).run rest = _
    rw [step_map hf, ih]
    rfl

end CursorPool

namespace Cursor.Ledger

variable {γ : Type} {ledger : Ledger γ}

/-- The books of several cursors. -/
def total (ledger : Ledger γ) (cursors : List γ) : Books :=
  cursors.flatMap ledger.books

/-- What one cursor does passes in the books of them all. -/
theorem passes_total {cursors : List γ} {place : Nat} {c after : γ} {events : List Event}
    (hplace : cursors[place]? = some c)
    (h : (ledger.books c).Passes (ledger.books after) events) :
    (ledger.total cursors).Passes (ledger.total (cursors.set place after)) events := by
  induction cursors generalizing place with
  | nil => simp at hplace
  | cons first rest ih =>
    cases place with
    | zero =>
      cases hplace
      exact h.append_right _
    | succ place => exact (ih hplace).append_left _

end Cursor.Ledger

namespace CursorPool

variable {γ : Type} [Cursor γ] {ledger : Cursor.Ledger γ} {pool : CursorPool γ}

theorem run_concat (pool : CursorPool γ) (steps : List PoolStep) (step : PoolStep) :
    pool.run (steps ++ [step]) = (pool.run steps).step step :=
  List.foldl_concat ..

/-- All cursors are in order, and the books have come from these to what they are as the log
tells. -/
def Balanced (ledger : Cursor.Ledger γ) (books : Books) (pool : CursorPool γ) : Prop :=
  (∀ c ∈ pool.cursors, ledger.Good c) ∧ books.Passes (ledger.total pool.cursors) pool.log

variable {books : Books}

/-- A call on a cursor that is in order reports what it changes in the books of this cursor. -/
theorem exists_of_call (hledger : ledger.Balances) {place : Nat} {context : QueryContext}
    {call : CursorCall} (hrecords : context.config.recordMetrics) {c : γ} (hc : ledger.Good c)
    (hplace : pool.cursors[place]? = some c) :
    ∃ after events, (pool.step (.call place context call)).log = pool.log ++ events ∧
      (pool.step (.call place context call)).cursors = pool.cursors.set place after ∧
        ledger.Tells c after events := by
  simp only [CursorPool.step, hplace]
  exact ⟨_, _, rfl, rfl, hledger.perform pool.stores hrecords hc call⟩

theorem Balanced.step (hledger : ledger.Balances) (h : pool.Balanced ledger books)
    {step : PoolStep} (hrecords : step.RecordsMetrics) :
    (pool.step step).Balanced ledger books := by
  obtain ⟨hgood, hlog⟩ := h
  cases step with
  | change store call => exact ⟨hgood, hlog⟩
  | call place context call =>
    cases hplace : pool.cursors[place]? with
    | none =>
      simp only [CursorPool.step, hplace]
      exact ⟨hgood, hlog⟩
    | some c =>
      obtain ⟨after, events, hlog', hcursors, hafter, hevents⟩ :=
        exists_of_call hledger hrecords (hgood c (List.mem_of_getElem? hplace)) hplace
      rw [Balanced, hlog', hcursors]
      refine ⟨fun other hother => ?_, hlog.trans (Cursor.Ledger.passes_total hplace hevents)⟩
      rcases List.mem_or_eq_of_mem_set hother with hkept | rfl
      · exact hgood other hkept
      · exact hafter

/-- Steps whose contexts record metrics keep a pool balanced. -/
theorem Balanced.run (hledger : ledger.Balances) (h : pool.Balanced ledger books)
    {steps : List PoolStep} (hrecords : ∀ step ∈ steps, step.RecordsMetrics) :
    (pool.run steps).Balanced ledger books := by
  induction steps generalizing pool with
  | nil => exact h
  | cons step rest ih =>
    obtain ⟨hstep, hrest⟩ := List.forall_mem_cons.mp hrecords
    exact ih (h.step hledger hstep) hrest

end CursorPool

/-! ### The balance -/

/-- A tree of some shape. -/
abbrev QueryTree := (shape : QueryShape) × shape.Carrier

/-- A tree of some shape all of whose cursors have meters. -/
abbrev MeteredTree := (shape : QueryShape) × shape.MeteredCarrier

namespace QueryTree

/-- The tree with new meters. -/
def meter : QueryTree → MeteredTree :=
  Sigma.map id QueryShape.meter

/-- The tree without its meters. -/
def erase : MeteredTree → QueryTree :=
  Sigma.map id QueryShape.erase

/-- The books of all cursors of a tree. -/
def ledger : Cursor.Ledger MeteredTree :=
  .sigma QueryShape.ledger

/-- The kinds and states of all cursors of some trees. -/
def cursors (trees : List QueryTree) : List (CursorKind × CursorState) :=
  trees.flatMap fun tree => tree.1.cursors tree.2

theorem erase_meter (tree : QueryTree) : erase (meter tree) = tree :=
  Sigma.ext rfl (heq_of_eq (tree.1.erase_meter tree.2))

theorem map_erase_meter (trees : List QueryTree) : (trees.map meter).map erase = trees := by
  rw [List.map_map, Function.comp_def]
  simp only [erase_meter, List.map_id']

/-- Nothing was noted in the books of closed trees with new meters. -/
theorem fresh_total_meter {trees : List QueryTree}
    (hclosed : ∀ tree ∈ trees, tree.1.All (· = .closed) tree.2) :
    (ledger.total (trees.map meter)).Fresh ∧ ∀ tree ∈ trees.map meter, ledger.Good tree := by
  have hmeter (tree : QueryTree) (htree : tree ∈ trees) :
      (ledger.books (meter tree)).Fresh ∧ ledger.Good (meter tree) :=
    tree.1.fresh_meter (hclosed tree htree)
  refine ⟨fun page hpage => ?_, List.forall_mem_map.mpr fun tree htree => (hmeter tree htree).2⟩
  obtain ⟨metered, hmetered, hmem⟩ := List.mem_flatMap.mp hpage
  obtain ⟨tree, htree, rfl⟩ := List.mem_map.mp hmetered
  exact (hmeter tree htree).1 page hmem

/-- The books have the right number of open cursors. -/
theorem opens_total (trees : List MeteredTree) (kind : CursorKind) :
    (ledger.total trees).opens kind = QueryShape.openCount kind (cursors (trees.map erase)) := by
  have hpages : (ledger.total trees).map (fun page => (page.kind, page.isOpen)) =
      (cursors (trees.map erase)).map fun cursor => (cursor.1, cursor.2.isOpen) := by
    rw [Cursor.Ledger.total, cursors, List.map_flatMap, List.map_flatMap, List.flatMap_map]
    congr 1
    funext tree
    exact tree.1.map_books tree.2
  have hcount := congrArg (List.countP fun page => page.1 = kind ∧ page.2) hpages
  rwa [List.countP_map, List.countP_map] at hcount

/-- **Metrics balance.**  Take any trees whose cursors are closed and any calls on their roots,
under contexts that record metrics, with any changes of the stores in between.  The calls may fail,
find the query stopped, open what is open, or close what is closed.  Then after every call

* of every kind, as many cursors were opened as were closed or are open now;
* every closing of an intersection has its one report of an end just before it, with as many rows
  with and without a partner as the closing has rows, every closing of a scan has its one report of
  rows read, with that number, and there are no such reports besides (`Reported`);
* the same calls on trees with meters are answered with the same events and leave the same cursors;
* every open cursor has counted the rows that its meter has counted since it was opened, and the
  closings of a kind have the numbers of rows that the meters of its cursors noted;
* every single call has reported the changes in the books of the tree that it was made on: each
  closing is that of one of the tree's cursors, which was open, and the number of rows that it tells
  is the one that the meter of this cursor noted (`Books.Passes`). -/
theorem metrics_balance (stores : Stores) {trees : List QueryTree}
    (hclosed : ∀ tree ∈ trees, tree.1.All (· = .closed) tree.2) {steps : List PoolStep}
    (hrecords : ∀ step ∈ steps, step.RecordsMetrics) :
    let pool := (CursorPool.start stores trees).run
    let metered := (CursorPool.start stores (trees.map meter)).run
    (∀ kind, Event.openings kind (pool steps).log =
        (Event.closings kind (pool steps).log).length +
          QueryShape.openCount kind (cursors (pool steps).cursors)) ∧
      Reported (pool steps).log ∧
      (metered steps).map erase = pool steps ∧
      (∀ tree ∈ (metered steps).cursors, ledger.Good tree) ∧
      (∀ kind, (Event.closings kind (pool steps).log).Perm
        ((ledger.total (metered steps).cursors).noted kind)) ∧
      ∀ done next place context call tree, next <+: steps →
        next = done ++ [.call place context call] → (metered done).cursors[place]? = some tree →
          ∃ after events, (pool next).log = (pool done).log ++ events ∧
            (metered next).cursors = (metered done).cursors.set place after ∧
              (ledger.books tree).Passes (ledger.books after) events := by
  intro pool metered
  have hmirrors : Cursor.Mirrors erase := .sigma QueryShape.mirrors_erase
  have hsame (steps : List PoolStep) : (metered steps).map erase = pool steps := by
    refine (CursorPool.run_map hmirrors _ steps).symm.trans ?_
    show CursorPool.run ⟨stores, (trees.map meter).map erase, []⟩ steps = pool steps
    rw [map_erase_meter]
    rfl
  have hlog (steps : List PoolStep) : (pool steps).log = (metered steps).log := by
    rw [← hsame]
    rfl
  have hcursors : (pool steps).cursors = (metered steps).cursors.map erase := by
    rw [← hsame]
    rfl
  have hledger : ledger.Balances := .sigma QueryShape.balances
  obtain ⟨hfresh, hstart⟩ := fresh_total_meter hclosed
  have hbalanced : (CursorPool.start stores (trees.map meter)).Balanced ledger
      (ledger.total (trees.map meter)) := ⟨hstart, .refl _⟩
  obtain ⟨hgood, hpasses⟩ := hbalanced.run hledger hrecords
  rw [hlog, hcursors]
  refine ⟨fun kind => ?_, hpasses.reported, hsame steps, hgood, fun kind => ?_,
    fun done next place context call tree hpart hnext hplace => ?_⟩
  · rw [← opens_total, ← hpasses.opens kind, hfresh.opens_eq, Nat.add_zero]
  · have hnoted := hpasses.noted kind
    rwa [hfresh.noted_eq, List.nil_append] at hnoted
  · have hmade : ∀ step ∈ next, step.RecordsMetrics :=
      fun step hstep => hrecords step (hpart.subset hstep)
    rw [hnext, List.forall_mem_append, List.forall_mem_singleton] at hmade
    have hcall : metered next = (metered done).step (.call place context call) := by
      rw [hnext]
      exact CursorPool.run_concat ..
    rw [hlog, hlog, hcall]
    have hdone := (hbalanced.run hledger hmade.1).1
    obtain ⟨after, events, hevents, hafter, htells⟩ := CursorPool.exists_of_call hledger hmade.2
      (hdone tree (List.mem_of_getElem? hplace)) hplace
    exact ⟨after, events, hevents, hafter, htells.2⟩

/-- The joined numbers beside the lines, and numbers alone. -/
def numbers : List QueryTree :=
  [⟨_, QueryShape.numbersBesideLines⟩, ⟨.rows, IntersectionRequest.scrambled.cursor⟩]

/-- The first tree is stopped while it is asked for its second row, and then its index is dropped
and it does not open anew.  The second one is closed before it is opened, and left open. -/
def failing : List PoolStep :=
  [.call 1 .standard .close, .call 0 IntersectionRequest.unchecked .openOn,
    .call 0 IntersectionRequest.unchecked .advance, .call 1 .standard .openOn,
    .call 1 .standard .advance, .call 0 IntersectionRequest.unchecked .advance,
    .change 0 (.drop Index.linesByPrice.name), .call 0 .standard .openOn]

/-- What the first tree reports when it is stopped.  The inner intersection gives up first. -/
def stopped : List Event :=
  [.cancelled, .cursorFailed .intersection, .cursorClosed .rows 1, .cursorClosed .rows 2,
    .intersectionFinished 0 1 1, .cursorClosed .intersection 1, .cursorFailed .intersection,
    .rowsScanned Index.linesByPrice.name 1, .cursorClosed .indexScan 1,
    .intersectionFinished 1 0 0, .cursorClosed .intersection 1]

/-- Five times a cursor over rows was opened, four times one was closed, and one is open in the end.
The meters of the two intersections have noted one row each, and none when the inner one was closed
again.  When the first tree was stopped, its own meters noted what it reported. -/
theorem metrics_balance_failing :
    let stores : Stores := fun _ => IndexStore.run IndexScan.sampleCalls
    let pool := (CursorPool.start stores numbers).run
    let metered := (CursorPool.start stores (numbers.map meter)).run
    (∀ tree ∈ numbers, tree.1.All (· = .closed) tree.2) ∧
      (∀ step ∈ failing, step.RecordsMetrics) ∧
      (Event.openings .rows (pool failing).log = 5 ∧
        Event.closings .rows (pool failing).log = [1, 2, 0, 0] ∧
        QueryShape.openCount .rows (cursors (pool failing).cursors) = 1) ∧
      Reported (pool failing).log ∧
      [1, 1, 0].Perm ((ledger.total (metered failing).cursors).noted .intersection) ∧
      ∃ tree after, (metered (failing.take 5)).cursors[0]? = some tree ∧
        (metered (failing.take 6)).cursors = (metered (failing.take 5)).cursors.set 0 after ∧
          (ledger.books tree).Passes (ledger.books after) stopped := by
  intro stores pool metered
  have hclosed : ∀ tree ∈ numbers, tree.1.All (· = .closed) tree.2 := by
    simp only [numbers, List.forall_mem_cons]
    exact ⟨by decide, rfl, by simp⟩
  have hrecords : ∀ step ∈ failing, step.RecordsMetrics := by
    simp only [failing, List.forall_mem_cons]
    exact ⟨rfl, rfl, rfl, rfl, rfl, rfl, trivial, rfl, by simp⟩
  obtain ⟨hopens, hreported, -, -, hnoted, hcalls⟩ := metrics_balance stores hclosed hrecords
  -- the pool is run once for all three figures
  have hlog : Event.openings .rows (pool failing).log = 5 ∧
      Event.closings .rows (pool failing).log = [1, 2, 0, 0] ∧
      Event.closings .intersection (pool failing).log = [1, 1, 0] := by
    decide +kernel
  obtain ⟨hopenings, hclosings, hintersections⟩ := hlog
  have hperm := hnoted .intersection
  rw [hintersections] at hperm
  have hopen : QueryShape.openCount .rows (cursors (pool failing).cursors) = 1 := by
    have hrows : 5 = 4 + QueryShape.openCount .rows (cursors (pool failing).cursors) := by
      rw [← hopenings, hopens .rows, hclosings]
      rfl
    omega
  have hcall : (pool (failing.take 6)).log = (pool (failing.take 5)).log ++ stopped := by
    decide +kernel
  have hsome : ((metered (failing.take 5)).cursors[0]?).isSome := by
    decide +kernel
  obtain ⟨tree, htree⟩ := Option.isSome_iff_exists.mp hsome
  have hpart : failing.take 6 <+: failing := List.take_prefix 6 failing
  obtain ⟨after, events, hevents, hafter, hpasses⟩ :=
    hcalls (failing.take 5) _ 0 IntersectionRequest.unchecked .advance tree hpart rfl htree
  obtain rfl := List.append_cancel_left (hcall.symm.trans hevents)
  refine ⟨hclosed, hrecords, ⟨hopenings, hclosings, hopen⟩, hreported, ?_, tree, after, htree,
    hafter, hpasses⟩
  -- the books are not to be computed here
  with_reducible exact hperm

end QueryTree

end TableGroups
