import Mathlib.Data.List.Chain
import TableGroups.Cursor.Intersection
import TableGroups.Proofs.Cursor.Delivery
import TableGroups.Proofs.KeyComparator

/-!
# What a merge sees of an input

An input of a merge does not hand on all that its cursor delivers: rows of another type are passed
over, and if the order is checked, a row that goes behind the last one used up is a failure.  What
is left is a `Supply`: the rows that count, in order, and how they stop.  `InputRule.supply` is the
supply that results from the rows of a cursor, and `Input.Holds` says that an input in any state of
a merge, with or without a row in hand, still has a given supply to offer.

Filling an input gets the first row of the supply in hand or shows how the supply stops
(`Holds.fill`), and using the row up leaves the rest (`Holds.take`).  If the rows of the type are
`Ascending`, then they are the supply, whether the order is checked or not
(`supply_of_ascending`).
-/

namespace TableGroups

/-- The rows of an input that count, and the failure that ends them, if one does. -/
structure Supply where
  rows : List Row
  stop : Option CursorError

/-- A supply with one more row in front. -/
def Supply.cons (row : Row) (supply : Supply) : Supply :=
  ⟨row :: supply.rows, supply.stop⟩

/-- From row to row the keys at an offset do not go backwards. -/
def KeyComparator.Ascending (comparator : KeyComparator) (offset : Nat) (rows : List Row) : Prop :=
  rows.IsChain fun l r => comparator.NotAfter l.values offset r.values offset

instance (comparator : KeyComparator) (offset : Nat) (rows : List Row) :
    Decidable (comparator.Ascending offset rows) :=
  inferInstanceAs (Decidable (rows.IsChain _))

/-- Among ascending rows no key comes after a later one. -/
theorem KeyComparator.Ascending.pairwise {comparator : KeyComparator} {offset : Nat}
    {rows : List Row} (h : comparator.Ascending offset rows) :
    rows.Pairwise fun l r => comparator.NotAfter l.values offset r.values offset := by
  have htrans : IsTrans Row fun l r => comparator.NotAfter l.values offset r.values offset :=
    ⟨fun _ _ _ => KeyComparator.NotAfter.trans⟩
  exact List.isChain_iff_pairwise.mp h

/-- What an input is asked for. -/
structure InputRule where
  side : Side
  rowType : RowType
  offset : Nat
  comparator : KeyComparator
  check : Bool

namespace InputRule

/-- Check a row against the row used up last, if the order is checked at all. -/
def accept (rule : InputRule) (last : Option Row) (row : Row) : Except CursorError Unit :=
  if rule.check then
    match last with
    | none => .ok ()
    | some previous =>
      match rule.comparator.compareRuns previous.values rule.offset row.values rule.offset with
      | .error e => .error (.comparison e)
      | .ok .gt => .error (.outOfOrder rule.side rule.comparator.directions previous row)
      | .ok _ => .ok ()
  else .ok ()

/-- The supply from the rows of a cursor that stops with `stop`, after `last` was used up. -/
def supply (rule : InputRule) (last : Option Row) : List Row → Option CursorError → Supply
  | [], stop => ⟨[], stop⟩
  | row :: rest, stop =>
    if row.isOfType rule.rowType then
      match rule.accept last row with
      | .error e => ⟨[], some e⟩
      | .ok () => (rule.supply (some row) rest stop).cons row
    else rule.supply last rest stop

section

variable {rule : InputRule} {last : Option Row} {row : Row} {rest : List Row}
  {stop : Option CursorError}

theorem supply_of_foreign (htype : row.isOfType rule.rowType = false) :
    rule.supply last (row :: rest) stop = rule.supply last rest stop := by
  rw [supply, htype]
  rfl

theorem supply_of_refused {e : CursorError} (htype : row.isOfType rule.rowType)
    (haccept : rule.accept last row = .error e) :
    rule.supply last (row :: rest) stop = ⟨[], some e⟩ := by
  rw [supply, if_pos htype, haccept]

theorem supply_of_accepted (htype : row.isOfType rule.rowType)
    (haccept : rule.accept last row = .ok ()) :
    rule.supply last (row :: rest) stop = (rule.supply (some row) rest stop).cons row := by
  rw [supply, if_pos htype, haccept]

/-- A row that does not go behind the row used up last passes the check. -/
theorem accept_of_notAfter
    (h : ∀ previous ∈ last,
      rule.comparator.NotAfter previous.values rule.offset row.values rule.offset) :
    rule.accept last row = .ok () := by
  unfold accept
  split
  · cases last with
    | none => rfl
    | some previous =>
      obtain ⟨o, ho, hle⟩ := h previous rfl
      simp only [ho]
      cases o with
      | lt => rfl
      | eq => rfl
      | gt => cases hle
  · rfl

/-- If the rows of the type ascend from the row used up last, then they are the supply. -/
theorem supply_of_ascending {rows : List Row}
    (h : rule.comparator.Ascending rule.offset
      (last.toList ++ rows.filter (·.isOfType rule.rowType))) :
    rule.supply last rows stop = ⟨rows.filter (·.isOfType rule.rowType), stop⟩ := by
  induction rows generalizing last with
  | nil => rfl
  | cons row rest ih =>
    cases htype : row.isOfType rule.rowType with
    | false =>
      simp only [List.filter_cons, htype, Bool.false_eq_true, if_false] at h ⊢
      rw [supply_of_foreign htype, ih h]
    | true =>
      simp only [List.filter_cons, htype, if_true] at h ⊢
      have haccept : rule.accept last row = .ok () := by
        apply accept_of_notAfter
        rintro previous ⟨⟩
        exact List.IsChain.rel h
      have hrest : rule.comparator.Ascending rule.offset
          ((some row).toList ++ rest.filter (·.isOfType rule.rowType)) :=
        List.IsChain.right_of_append h
      rw [supply_of_accepted htype haccept, ih hrest]
      rfl

end

end InputRule

namespace Input

variable {γ : Type}

/-- What the input is asked for in a merge. -/
def rule (input : Input γ) (side : Side) (comparator : KeyComparator) (check : Bool) : InputRule :=
  ⟨side, input.rowType, input.offset, comparator, check⟩

theorem checkOrder_eq_accept (input : Input γ) (side : Side) (comparator : KeyComparator)
    (check : Bool) (row : Row) :
    (if check then input.checkOrder side comparator row else .ok ()) =
      (input.rule side comparator check).accept input.last row := rfl

variable [Cursor γ] {context : QueryContext} {side : Side} {comparator : KeyComparator}
  {check : Bool} {input : Input γ} {supply : Supply}

/-- Under the context the input still has this supply to offer. -/
inductive Holds (context : QueryContext) (side : Side) (comparator : KeyComparator) (check : Bool)
    (input : Input γ) : Supply → Prop where
  /-- The first row is in hand. -/
  | inHand {row : Row} {rows : List Row} {stop : Option CursorError}
      (hhand : input.lookahead = some row) (hopen : input.exhausted = false)
      (hrows : Cursor.Delivers context input.cursor rows stop) :
      Holds context side comparator check input
        (((input.rule side comparator check).supply (some row) rows stop).cons row)
  /-- All rows are still to come. -/
  | waiting {rows : List Row} {stop : Option CursorError}
      (hhand : input.lookahead = none) (hopen : input.exhausted = false)
      (hrows : Cursor.Delivers context input.cursor rows stop) :
      Holds context side comparator check input
        ((input.rule side comparator check).supply input.last rows stop)
  /-- There are no rows to come. -/
  | spent (hhand : input.lookahead = none) (hspent : input.exhausted = true) :
      Holds context side comparator check input ⟨[], none⟩

/-- What filling an input does, by what its supply begins with. -/
inductive Filled (context : QueryContext) (side : Side) (comparator : KeyComparator) (check : Bool)
    (input : Input γ) (supply : Supply) (call : Call (Input γ) Nat) : Prop where
  /-- The supply stops with a failure. -/
  | failed {e : CursorError} (hrows : supply.rows = []) (hstop : supply.stop = some e)
      (hresult : call.result = .error e)
  /-- The first row of the supply is in hand, or there is none. -/
  | ready {passed : Nat} (hresult : call.result = .ok passed)
      (hstop : supply.rows = [] → supply.stop = none)
      (hhand : call.cursor.lookahead = supply.rows.head?)
      (hholds : Holds context side comparator check call.cursor supply)
      (hoffset : call.cursor.offset = input.offset)

/-- An input that is asked for a row has all of its rows still to come. -/
theorem Holds.of_asked (h : input.Holds context side comparator check supply)
    (hasked : ¬(input.exhausted || input.lookahead.isSome) = true) :
    input.lookahead = none ∧ input.exhausted = false ∧
      ∃ rows stop, Cursor.Delivers context input.cursor rows stop ∧
        supply = (input.rule side comparator check).supply input.last rows stop := by
  cases h with
  | inHand hhand hopen hrows => simp [hhand] at hasked
  | waiting hhand hopen hrows => exact ⟨hhand, hopen, _, _, hrows, rfl⟩
  | spent hhand hspent => simp [hspent] at hasked

/-- Filling gets the first row of the supply in hand, or shows how the supply stops. -/
theorem Holds.fill (h : input.Holds context side comparator check supply) :
    Filled context side comparator check input supply
      (fill context side comparator check input) := by
  fun_induction Input.fill context side comparator check input with
  | case1 input hidle =>
    -- nothing is asked of the cursor
    cases h with
    | inHand hhand hopen hrows =>
      exact .ready rfl (fun h => by cases h) hhand (.inHand hhand hopen hrows) rfl
    | waiting hhand hopen hrows => simp [hhand, hopen] at hidle
    | spent hhand hspent => exact .ready rfl (fun _ => rfl) hhand (.spent hhand hspent) rfl
  | case2 input hasked e cursor events hstep =>
    obtain ⟨-, -, rows, stop, hrows, rfl⟩ := h.of_asked hasked
    obtain ⟨rfl, rfl⟩ := hrows.of_error hstep
    exact .failed rfl rfl rfl
  | case3 input hasked cursor events hstep =>
    obtain ⟨hhand, -, rows, stop, hrows, rfl⟩ := h.of_asked hasked
    obtain ⟨rfl, rfl⟩ := hrows.of_none hstep
    exact .ready rfl (fun _ => rfl) hhand (.spent hhand rfl) rfl
  | case4 input hasked row cursor events hstep htype e haccept =>
    obtain ⟨-, -, rows, stop, hrows, rfl⟩ := h.of_asked hasked
    obtain ⟨rest, rfl, hrest⟩ := hrows.of_some hstep
    rw [dite_eq_ite, checkOrder_eq_accept] at haccept
    exact .failed (InputRule.supply_of_refused htype haccept ▸ rfl)
      (InputRule.supply_of_refused htype haccept ▸ rfl) rfl
  | case5 input hasked row cursor events hstep htype haccept =>
    obtain ⟨-, hopen, rows, stop, hrows, rfl⟩ := h.of_asked hasked
    obtain ⟨rest, rfl, hrest⟩ := hrows.of_some hstep
    rw [dite_eq_ite, checkOrder_eq_accept] at haccept
    rw [InputRule.supply_of_accepted htype haccept]
    exact .ready rfl (fun h => by cases h) rfl (.inHand rfl hopen hrest) rfl
  | case6 input hasked row cursor events hstep htype rest ih =>
    obtain ⟨hhand, hopen, rows, stop, hrows, hsupply⟩ := h.of_asked hasked
    obtain ⟨others, rfl, hothers⟩ := hrows.of_some hstep
    have hforeign : row.isOfType (input.rule side comparator check).rowType = false :=
      Bool.eq_false_iff.mpr htype
    rw [InputRule.supply_of_foreign hforeign] at hsupply
    have hholds : Holds context side comparator check { input with cursor } supply := by
      rw [hsupply]
      exact .waiting hhand hopen hothers
    cases ih hholds with
    | failed hnone hstop hresult =>
      exact .failed hnone hstop (by rw [hresult]; rfl)
    | ready hresult hstop hhand hholds hoffset =>
      exact .ready (by rw [hresult]; rfl) hstop hhand hholds hoffset

/-- Using up the row in hand leaves the rest of the supply. -/
theorem Holds.take {row : Row} {rows : List Row} {stop : Option CursorError}
    (h : input.Holds context side comparator check ⟨row :: rows, stop⟩)
    (hhand : input.lookahead = some row) :
    input.take.Holds context side comparator check ⟨rows, stop⟩ := by
  generalize hsupply : Supply.mk (row :: rows) stop = supply at h
  cases h with
  | waiting hnone _ _ => simp [hnone] at hhand
  | spent _ _ => simp at hsupply
  | inHand _ hopen hrows =>
    cases hsupply
    rw [Input.take, hhand]
    exact .waiting rfl hopen hrows

omit [Cursor γ] in
@[simp] theorem offset_take : input.take.offset = input.offset := by
  unfold Input.take
  split <;> rfl

omit [Cursor γ] in
@[simp] theorem rowType_take : input.take.rowType = input.rowType := by
  unfold Input.take
  split <;> rfl

end Input

end TableGroups
