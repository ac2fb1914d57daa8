import Mathlib.Data.List.Count
import Mathlib.Data.List.Perm.Basic
import TableGroups.Metrics

/-!
# Events and books

What cursors report can be checked against books, which have a page for each cursor: whether it is
open, and how many rows it had returned each time it was closed.  Between two moments the books
change and events are reported, and the two have to tell the same (`Books.Passes`).  Read one after
the other, each opening is that of a cursor that was closed, and each closing is that of a cursor
that was open, on whose page its rows are noted.

Figures of the books as a whole follow: how many cursors of a kind are open (`Passes.opens`), and
which numbers they noted (`Passes.noted`).

Closings are also told in a fixed form (`Closing`).  A scan says before that how many rows it has
read, and an intersection how many of its rows had a partner and how many had none.
-/

namespace TableGroups

/-! ### Events -/

/-- What a cursor of this kind that has returned this many rows reports when it is closed. -/
inductive Closing : CursorKind → Nat → List Event → Prop where
  | rows (n : Nat) : Closing .rows n [.cursorClosed .rows n]
  | indexScan (index : IndexName) (n : Nat) :
    Closing .indexScan n [.rowsScanned index n, .cursorClosed .indexScan n]
  | intersection (matched unmatched discarded : Nat) :
    Closing .intersection (matched + unmatched)
      [.intersectionFinished matched unmatched discarded,
        .cursorClosed .intersection (matched + unmatched)]

/-- Scans and intersections that end are reported with their closings and at no other time. -/
inductive Reported : List Event → Prop where
  | nil : Reported []
  | opened (kind : CursorKind) {rest : List Event} (hrest : Reported rest) :
    Reported (.cursorOpened kind :: rest)
  | failed (kind : CursorKind) {rest : List Event} (hrest : Reported rest) :
    Reported (.cursorFailed kind :: rest)
  | cancelled {rest : List Event} (hrest : Reported rest) : Reported (.cancelled :: rest)
  | closed {kind : CursorKind} {rows : Nat} {closing rest : List Event}
    (hclosing : Closing kind rows closing) (hrest : Reported rest) : Reported (closing ++ rest)

namespace Event

/-- The number of rows in the closing of a cursor of this kind. -/
def closedRows? (kind : CursorKind) : Event → Option Nat
  | .cursorClosed other rows => if other = kind then some rows else none
  | _ => none

/-- How many cursors of a kind were opened. -/
def openings (kind : CursorKind) (events : List Event) : Nat :=
  events.count (.cursorOpened kind)

/-- The numbers of rows of the cursors of a kind that were closed. -/
def closings (kind : CursorKind) (events : List Event) : List Nat :=
  events.filterMap (closedRows? kind)

variable {kind : CursorKind} {events more : List Event}

@[simp] theorem closings_nil : closings kind [] = [] := rfl

@[simp] theorem openings_append :
    openings kind (events ++ more) = openings kind events + openings kind more :=
  List.count_append

@[simp] theorem closings_append :
    closings kind (events ++ more) = closings kind events ++ closings kind more :=
  List.filterMap_append

theorem openings_opened (own : CursorKind) :
    openings kind [.cursorOpened own] = if own = kind then 1 else 0 := by
  simp [openings, List.count_singleton]

@[simp] theorem closings_opened (own : CursorKind) : closings kind [.cursorOpened own] = [] := rfl

theorem openings_closing {own : CursorKind} {rows : Nat} (h : Closing own rows events) :
    openings kind events = 0 := by
  cases h <;> rfl

theorem closings_closing {own : CursorKind} {rows : Nat} (h : Closing own rows events) :
    closings kind events = if own = kind then [rows] else [] := by
  cases h <;> cases kind <;> rfl

end Event

/-! ### Books -/

/-- What is known of a cursor. -/
structure Page where
  kind : CursorKind
  isOpen : Bool
  /-- How many rows it had returned each time it was closed. -/
  notes : List Nat

/-- What is known of some cursors, with a page for each. -/
abbrev Books := List Page

namespace Books

/-- How many of the cursors of a kind are open. -/
def opens (books : Books) (kind : CursorKind) : Nat :=
  books.countP fun page => page.kind = kind ∧ page.isOpen

/-- What the cursors of a kind have noted. -/
def noted (books : Books) (kind : CursorKind) : List Nat :=
  books.flatMap fun page => if page.kind = kind then page.notes else []

/-- The cursors are closed and have noted nothing. -/
def Fresh (books : Books) : Prop :=
  ∀ page ∈ books, page.isOpen = false ∧ page.notes = []

/-- The events tell how the books change, one after the other.  An opening opens a cursor of its
kind that was closed.  A closing closes a cursor of its kind that was open, and its number of rows
is noted on the page of this cursor.  Failures and cancellations are not kept in the books. -/
inductive Passes : Books → Books → List Event → Prop where
  | refl (books : Books) : Passes books books []
  | opened (front back : Books) {kind : CursorKind} {notes : List Nat} {after : Books}
    {rest : List Event} (hrest : Passes (front ++ ⟨kind, true, notes⟩ :: back) after rest) :
    Passes (front ++ ⟨kind, false, notes⟩ :: back) after (.cursorOpened kind :: rest)
  | closed (front back : Books) {kind : CursorKind} {rows : Nat} {notes : List Nat}
    {after : Books} {closing rest : List Event} (hclosing : Closing kind rows closing)
    (hrest : Passes (front ++ ⟨kind, false, notes ++ [rows]⟩ :: back) after rest) :
    Passes (front ++ ⟨kind, true, notes⟩ :: back) after (closing ++ rest)
  | failed (kind : CursorKind) {before after : Books} {rest : List Event}
    (hrest : Passes before after rest) : Passes before after (.cursorFailed kind :: rest)
  | cancelled {before after : Books} {rest : List Event} (hrest : Passes before after rest) :
    Passes before after (.cancelled :: rest)

variable {before between after : Books} {events more : List Event} {kind : CursorKind}

theorem Passes.trans (h : before.Passes between events) (hmore : between.Passes after more) :
    before.Passes after (events ++ more) := by
  induction h with
  | refl => exact hmore
  | opened front back _ ih => exact .opened front back (ih hmore)
  | closed front back hclosing _ ih =>
    rw [List.append_assoc]
    exact .closed front back hclosing (ih hmore)
  | failed kind _ ih => exact .failed kind (ih hmore)
  | cancelled _ ih => exact .cancelled (ih hmore)

/-- Cursors with later pages do not matter. -/
theorem Passes.append_right (h : before.Passes after events) (others : Books) :
    Passes (before ++ others) (after ++ others) events := by
  induction h with
  | refl books => exact .refl _
  | opened front back _ ih =>
    rw [List.append_assoc] at ih ⊢
    exact .opened front _ ih
  | closed front back hclosing _ ih =>
    rw [List.append_assoc] at ih ⊢
    exact .closed front _ hclosing ih
  | failed kind _ ih => exact .failed kind ih
  | cancelled _ ih => exact .cancelled ih

/-- Cursors with earlier pages do not matter. -/
theorem Passes.append_left (h : before.Passes after events) (others : Books) :
    Passes (others ++ before) (others ++ after) events := by
  induction h with
  | refl books => exact .refl _
  | opened front back _ ih =>
    rw [← List.append_assoc] at ih ⊢
    exact .opened _ back ih
  | closed front back hclosing _ ih =>
    rw [← List.append_assoc] at ih ⊢
    exact .closed _ back hclosing ih
  | failed kind _ ih => exact .failed kind ih
  | cancelled _ ih => exact .cancelled ih

/-! ### Figures of the books -/

theorem opens_append_cons (front back : Books) (page : Page) :
    opens (front ++ page :: back) kind =
      opens (front ++ back) kind + if page.kind = kind ∧ page.isOpen then 1 else 0 := by
  simp only [opens, List.countP_append, List.countP_cons, decide_eq_true_eq]
  omega

theorem noted_append_cons (front back : Books) (page : Page) :
    noted (front ++ page :: back) kind =
      noted front kind ++ ((if page.kind = kind then page.notes else []) ++ noted back kind) := by
  simp [noted]

theorem Fresh.opens_eq (h : before.Fresh) (kind : CursorKind) : before.opens kind = 0 := by
  refine List.countP_eq_zero.mpr fun page hpage => ?_
  simp [(h page hpage).1]

theorem Fresh.noted_eq (h : before.Fresh) (kind : CursorKind) : before.noted kind = [] := by
  refine List.flatMap_eq_nil_iff.mpr fun page hpage => ?_
  rw [(h page hpage).2, ite_self]

/-- Ends are reported with the closings and at no other time. -/
theorem Passes.reported (h : before.Passes after events) : Reported events := by
  induction h with
  | refl => exact .nil
  | opened _ _ _ ih => exact .opened _ ih
  | closed _ _ hclosing _ ih => exact .closed hclosing ih
  | failed kind _ ih => exact .failed kind ih
  | cancelled _ ih => exact .cancelled ih

/-- Of every kind, as many cursors were opened as were closed or are open in the end, if those that
were open before are counted as opened. -/
theorem Passes.opens (h : before.Passes after events) (kind : CursorKind) :
    Event.openings kind events + before.opens kind =
      (Event.closings kind events).length + after.opens kind := by
  induction h with
  | refl => rfl
  | @opened front back own notes after rest _ ih =>
    rw [opens_append_cons] at ih ⊢
    rw [← List.singleton_append, Event.openings_append, Event.closings_append,
      Event.openings_opened, Event.closings_opened, List.nil_append, ← ih]
    simp only [Bool.false_eq_true, and_false, if_false, and_true]
    omega
  | @closed front back own rows notes after closing rest hclosing _ ih =>
    rw [opens_append_cons] at ih ⊢
    rw [Event.openings_append, Event.closings_append, Event.openings_closing hclosing,
      Event.closings_closing hclosing, List.length_append]
    simp only [Bool.false_eq_true, and_false, if_false, and_true] at ih ⊢
    split <;> simp only [List.length_singleton, List.length_nil] <;> omega
  | failed _ _ ih => exact ih
  | cancelled _ ih => exact ih

/-- The numbers that were noted are those of the closings. -/
theorem Passes.noted (h : before.Passes after events) (kind : CursorKind) :
    (before.noted kind ++ Event.closings kind events).Perm (after.noted kind) := by
  induction h with
  | refl => rw [Event.closings_nil, List.append_nil]
  | opened _ _ _ ih =>
    rw [noted_append_cons] at ih ⊢
    exact ih
  | @closed front back own rows notes after closing rest hclosing _ ih =>
    rw [noted_append_cons] at ih ⊢
    rw [Event.closings_append, Event.closings_closing hclosing]
    refine List.Perm.trans ?_ ih
    split
    · -- the number moves from the events to the end of the page
      simp only [List.append_assoc]
      refine ((List.perm_append_comm_assoc _ _ _).append_left _).append_left _
    · rfl
  | failed _ _ ih => exact ih
  | cancelled _ ih => exact ih

end Books

end TableGroups
