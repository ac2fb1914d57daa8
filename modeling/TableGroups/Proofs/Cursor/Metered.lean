import TableGroups.Proofs.Cursor.Mirror
import TableGroups.Proofs.Metrics

/-!
# Cursors with a meter

A meter on a cursor counts the rows that the cursor returns, from one opening to the next.  When the
cursor is closed, by a call to close it or because it gives up, the meter notes how many there were.
The meter takes no part in the calls (`Metered.mirrors`).

Cursors keep such an account themselves, and they report it.  What is asked of a cursor type is that
its figure starts at zero, goes up with each row, and is the one that is reported in the end
(`Cursor.Account.Kept`).  Then the books that meters keep are the books that the events tell
(`Metered.balances`).
-/

namespace TableGroups

theorem CursorState.isOpen_eq_false_iff {state : CursorState} :
    state.isOpen = false ↔ state = .closed := by
  cases state <;> simp [isOpen]

/-- A cursor with a meter. -/
structure Metered (γ : Type) where
  cursor : γ
  /-- How many rows the cursor has returned since it was opened. -/
  returned : Nat
  /-- How many rows it had returned each time when it was closed. -/
  notes : List Nat

namespace Metered

variable {γ : Type} [Cursor γ]

/-- A cursor with a new meter. -/
def fit (c : γ) : Metered γ :=
  ⟨c, 0, []⟩

/-- The meter after a call that leaves the cursor `after`.  If the call has closed the cursor, the
rows are noted. -/
def moved (c : Metered γ) (after : γ) (returned : Nat) : Metered γ :=
  ⟨after, returned,
    if (Cursor.state c.cursor).isOpen && !(Cursor.state after).isOpen then c.notes ++ [c.returned]
    else c.notes⟩

/-- Open the cursor and set the meter to zero. -/
def openOn (stores : Stores) (context : QueryContext) (c : Metered γ) : Call (Metered γ) Unit :=
  match Cursor.openOn stores context c.cursor with
  | ⟨.ok (), after, events⟩ => ⟨.ok (), c.moved after 0, events⟩
  | ⟨.error e, after, events⟩ => ⟨.error e, c.moved after c.returned, events⟩

/-- Ask the cursor for a row and count it. -/
def advance (context : QueryContext) (c : Metered γ) : Call (Metered γ) (Option Row) :=
  match Cursor.advance context c.cursor with
  | ⟨.ok (some row), after, events⟩ => ⟨.ok (some row), c.moved after (c.returned + 1), events⟩
  | ⟨.ok none, after, events⟩ => ⟨.ok none, c.moved after c.returned, events⟩
  | ⟨.error e, after, events⟩ => ⟨.error e, c.moved after c.returned, events⟩

/-- Close the cursor. -/
def close (c : Metered γ) : Metered γ × List Event :=
  (c.moved (Cursor.close c.cursor).1 c.returned, (Cursor.close c.cursor).2)

theorem map_openOn (stores : Stores) (context : QueryContext) (c : Metered γ) :
    (c.openOn stores context).map cursor = Cursor.openOn stores context c.cursor := by
  unfold openOn
  split <;> simp_all [Call.map, moved]

theorem map_advance (context : QueryContext) (c : Metered γ) :
    (c.advance context).map cursor = Cursor.advance context c.cursor := by
  unfold advance
  split <;> simp_all [Call.map, moved]

theorem remaining_advance {context : QueryContext} {c after : Metered γ} {row : Row}
    {events : List Event} (h : c.advance context = ⟨.ok (some row), after, events⟩) :
    Cursor.remaining after.cursor < Cursor.remaining c.cursor := by
  have hcall : Cursor.advance context c.cursor = ⟨.ok (some row), after.cursor, events⟩ := by
    rw [← map_advance, h]
    rfl
  exact Cursor.remaining_advance hcall

instance : Cursor (Metered γ) where
  rowType c := Cursor.rowType c.cursor
  state c := Cursor.state c.cursor
  openOn := openOn
  advance := advance
  close := close
  remaining c := Cursor.remaining c.cursor
  remaining_advance := remaining_advance

/-- A meter takes no part in the calls. -/
theorem mirrors : Cursor.Mirrors (cursor : Metered γ → γ) where
  state _ := rfl
  openOn stores context c := (map_openOn stores context c).symm
  advance context c := (map_advance context c).symm
  close _ := rfl

end Metered

namespace Cursor

/-! ### Accounts -/

/-- How a cursor type keeps account of itself. -/
structure Account (γ : Type) where
  kind : CursorKind
  /-- The number of rows returned, as the cursor has it. -/
  figure : γ → Nat
  /-- The books of what the cursor reads from. -/
  inputs : γ → Books
  /-- The cursor is in order. -/
  Good : γ → Prop

namespace Account

variable {γ : Type} [Cursor γ]

/-- The cursor was opened.  What it reads from comes first in the events. -/
def Opens (account : Account γ) (c after : γ) (events : List Event) : Prop :=
  (Cursor.state c).isOpen = false ∧ (Cursor.state after).isOpen = true ∧
    account.figure after = 0 ∧
      ∃ before, events = before ++ [.cursorOpened account.kind] ∧
        (account.inputs c).Passes (account.inputs after) before

/-- The cursor has returned a row. -/
def Returns (account : Account γ) (c after : γ) (events : List Event) : Prop :=
  (Cursor.state c).isOpen = true ∧ (Cursor.state after).isOpen = true ∧
    account.figure after = account.figure c + 1 ∧
      (account.inputs c).Passes (account.inputs after) events

/-- The cursor is as open as before, and has returned no row. -/
def Stays (account : Account γ) (c after : γ) (events : List Event) : Prop :=
  (Cursor.state after).isOpen = (Cursor.state c).isOpen ∧
    ((Cursor.state c).isOpen → account.figure after = account.figure c) ∧
      (account.inputs c).Passes (account.inputs after) events

/-- The cursor was closed.  What it reads from comes first in the events. -/
def Closes (account : Account γ) (c after : γ) (events : List Event) : Prop :=
  (Cursor.state c).isOpen = true ∧ (Cursor.state after).isOpen = false ∧
    ∃ before closing, events = before ++ closing ∧
      Closing account.kind (account.figure c) closing ∧
        (account.inputs c).Passes (account.inputs after) before

/-- The cursor has answered whether it opened. -/
def Opened (account : Account γ) (c : γ) (call : Call γ Unit) : Prop :=
  match call.result with
  | .ok _ => account.Opens c call.cursor call.events
  | .error _ => account.Stays c call.cursor call.events

/-- The cursor has answered a request for a row.  It may give up and close. -/
def Advanced (account : Account γ) (c : γ) (call : Call γ (Option Row)) : Prop :=
  match call.result with
  | .ok (some _) => account.Returns c call.cursor call.events
  | .ok none => account.Stays c call.cursor call.events
  | .error _ =>
    account.Stays c call.cursor call.events ∨ account.Closes c call.cursor call.events

/-- Every call does to the account what it answers, as long as cursors are opened under contexts
that record metrics. -/
structure Kept (account : Account γ) : Prop where
  openOn (stores : Stores) {context : QueryContext} {c : γ} :
    context.config.recordMetrics → account.Good c →
      account.Good (Cursor.openOn stores context c).cursor ∧
        account.Opened c (Cursor.openOn stores context c)
  advance (context : QueryContext) {c : γ} :
    account.Good c → account.Good (Cursor.advance context c).cursor ∧
      account.Advanced c (Cursor.advance context c)
  close {c : γ} :
    account.Good c → account.Good (Cursor.close c).1 ∧
      (account.Stays c (Cursor.close c).1 (Cursor.close c).2 ∨
        account.Closes c (Cursor.close c).1 (Cursor.close c).2)

/-- A call that changes nothing leaves the account as it was. -/
theorem Stays.refl {account : Account γ} {c : γ} {events : List Event}
    (h : (account.inputs c).Passes (account.inputs c) events) : account.Stays c c events :=
  ⟨rfl, fun _ => rfl, h⟩

end Account

/-! ### Ledgers -/

/-- The books of cursors, as far as they are in order. -/
structure Ledger (γ : Type) where
  books : γ → Books
  /-- The cursor and all that it reads from are in order. -/
  Good : γ → Prop

namespace Ledger

/-- Between two moments the books have changed as these events tell. -/
def Tells {γ : Type} (ledger : Ledger γ) (c after : γ) (events : List Event) : Prop :=
  ledger.Good after ∧ (ledger.books c).Passes (ledger.books after) events

theorem Tells.refl {γ : Type} {ledger : Ledger γ} {c : γ} (hc : ledger.Good c) :
    ledger.Tells c c [] :=
  ⟨hc, .refl _⟩

theorem Tells.trans {γ : Type} {ledger : Ledger γ} {c between after : γ}
    {events more : List Event} (h : ledger.Tells c between events)
    (hmore : ledger.Tells between after more) : ledger.Tells c after (events ++ more) :=
  ⟨hmore.1, h.2.trans hmore.2⟩

variable {γ : Type} [Cursor γ]

/-- The events of every call tell how the books change, as long as cursors are opened under contexts
that record metrics. -/
structure Balances (ledger : Ledger γ) : Prop where
  openOn {stores : Stores} {context : QueryContext} {c after : γ}
    {result : Except CursorError Unit} {events : List Event} :
    context.config.recordMetrics → ledger.Good c →
      Cursor.openOn stores context c = ⟨result, after, events⟩ → ledger.Tells c after events
  advance {context : QueryContext} {c after : γ} {result : Except CursorError (Option Row)}
    {events : List Event} :
    ledger.Good c → Cursor.advance context c = ⟨result, after, events⟩ →
      ledger.Tells c after events
  close {c : γ} : ledger.Good c → ledger.Tells c (Cursor.close c).1 (Cursor.close c).2

theorem Balances.perform {ledger : Ledger γ} (h : ledger.Balances) (stores : Stores)
    {context : QueryContext} (hrecords : context.config.recordMetrics) {c : γ}
    (hc : ledger.Good c) (call : CursorCall) :
    ledger.Tells c (Cursor.perform stores context c call).cursor
      (Cursor.perform stores context c call).events := by
  cases call with
  | openOn => exact h.openOn hrecords hc rfl
  | advance => exact h.advance hc rfl
  | close => exact h.close hc

end Ledger

end Cursor

namespace Metered

variable {γ : Type} [Cursor γ] {account : Cursor.Account γ} {c : Metered γ} {after : γ}
  {events : List Event}

/-- The books of a metered cursor are its own page and then those of what it reads from.  It is in
order if its meter shows the figure of its account. -/
def ledger (account : Cursor.Account γ) : Cursor.Ledger (Metered γ) where
  books c :=
    ⟨account.kind, (Cursor.state c.cursor).isOpen, c.notes⟩ :: account.inputs c.cursor
  Good c :=
    account.Good c.cursor ∧
      ((Cursor.state c.cursor).isOpen → c.returned = account.figure c.cursor)

/-- A new meter on a closed cursor has nothing to tell. -/
theorem fresh_fit {c : γ} (hclosed : Cursor.state c = .closed)
    (hinputs : (account.inputs c).Fresh) (hgood : account.Good c) :
    ((ledger account).books (fit c)).Fresh ∧ (ledger account).Good (fit c) := by
  have hidle := CursorState.isOpen_eq_false_iff.mpr hclosed
  refine ⟨?_, hgood, fun hopen => absurd (hidle.symm.trans hopen) Bool.false_ne_true⟩
  rintro page (_ | ⟨_, hpage⟩)
  · exact ⟨hidle, rfl⟩
  · exact hinputs page hpage

section

variable (returned : Nat)

theorem passes_of_opens (h : account.Opens c.cursor after events) :
    ((ledger account).books c).Passes ((ledger account).books (c.moved after returned))
      events := by
  obtain ⟨hclosed, hopen, -, before, rfl, hinputs⟩ := h
  simp only [ledger, moved, hclosed, hopen, Bool.false_and, Bool.false_eq_true, if_false]
  exact (hinputs.append_left [_]).trans (.opened [] _ (.refl _))

theorem passes_of_same (hstate : (Cursor.state after).isOpen = (Cursor.state c.cursor).isOpen)
    (hinputs : (account.inputs c.cursor).Passes (account.inputs after) events) :
    ((ledger account).books c).Passes ((ledger account).books (c.moved after returned))
      events := by
  simp only [ledger, moved, hstate, Bool.and_not_self, Bool.false_eq_true, if_false]
  exact hinputs.append_left [_]

theorem passes_of_closes (h : account.Closes c.cursor after events)
    (hreturned : c.returned = account.figure c.cursor) :
    ((ledger account).books c).Passes ((ledger account).books (c.moved after returned))
      events := by
  obtain ⟨hopen, hclosed, before, closing, rfl, hclosing, hinputs⟩ := h
  have hown : Books.Passes (⟨account.kind, true, c.notes⟩ :: account.inputs after)
      (⟨account.kind, false, c.notes ++ [account.figure c.cursor]⟩ :: account.inputs after)
      closing := by
    rw [← closing.append_nil]
    exact .closed [] _ hclosing (.refl _)
  simp only [ledger, moved, hopen, hclosed, Bool.not_false, Bool.and_self, if_true, hreturned]
  exact (hinputs.append_left [_]).trans hown

end

/-- A call that leaves a cursor as open as it was leaves the meter as it was. -/
theorem tells_of_stays (hc : (ledger account).Good c) (hafter : account.Good after)
    (h : account.Stays c.cursor after events) :
    (ledger account).Tells c (c.moved after c.returned) events := by
  obtain ⟨hstate, hfigure, hinputs⟩ := h
  refine ⟨⟨hafter, fun hopen => ?_⟩, passes_of_same _ hstate hinputs⟩
  have hbefore : (Cursor.state c.cursor).isOpen = true := hstate.symm.trans hopen
  exact (hc.2 hbefore).trans (hfigure hbefore).symm

/-- A call that closes a cursor notes what its meter shows. -/
theorem tells_of_closes (hc : (ledger account).Good c) (hafter : account.Good after)
    (h : account.Closes c.cursor after events) :
    (ledger account).Tells c (c.moved after c.returned) events := by
  refine ⟨⟨hafter, fun hopen => ?_⟩, passes_of_closes _ h (hc.2 h.1)⟩
  exact absurd (h.2.1.symm.trans hopen) Bool.false_ne_true

/-- **The books that meters keep are the ones that the events tell**, if the cursors keep account of
themselves. -/
theorem balances (h : account.Kept) : (ledger account).Balances where
  openOn {stores context c after result events} hrecords hc hcall := by
    have hopen : c.openOn stores context = ⟨result, after, events⟩ := hcall
    have hopened := h.openOn stores hrecords hc.1
    unfold Metered.openOn at hopen
    split at hopen
    · next cursor events hcall =>
      rw [hcall] at hopened
      cases hopen
      obtain ⟨hafter, hopens⟩ := hopened
      exact ⟨⟨hafter, fun _ => hopens.2.2.1.symm⟩, passes_of_opens 0 hopens⟩
    · next hcall =>
      rw [hcall] at hopened
      cases hopen
      exact tells_of_stays hc hopened.1 hopened.2
  advance {context c after result events} hc hcall := by
    have hadvance : c.advance context = ⟨result, after, events⟩ := hcall
    have hadvanced := h.advance context hc.1
    unfold Metered.advance at hadvance
    split at hadvance
    · next row cursor _ hcall =>
      rw [hcall] at hadvanced
      cases hadvance
      obtain ⟨hafter, hopen, hstill, hfigure, hinputs⟩ := hadvanced
      refine ⟨⟨hafter, fun _ => ?_⟩, passes_of_same _ (hstill.trans hopen.symm) hinputs⟩
      show c.returned + 1 = account.figure cursor
      rw [hfigure, hc.2 hopen]
    · next hcall =>
      rw [hcall] at hadvanced
      cases hadvance
      exact tells_of_stays hc hadvanced.1 hadvanced.2
    · next hcall =>
      rw [hcall] at hadvanced
      cases hadvance
      obtain ⟨hafter, hstays | hcloses⟩ := hadvanced
      · exact tells_of_stays hc hafter hstays
      · exact tells_of_closes hc hafter hcloses
  close {c} hc := by
    obtain ⟨hafter, hstays | hcloses⟩ := h.close hc.1
    · exact tells_of_stays hc hafter hstays
    · exact tells_of_closes hc hafter hcloses

end Metered

end TableGroups
