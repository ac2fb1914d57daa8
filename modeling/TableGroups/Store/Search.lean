/-!
# Binary search

`boundary p xs` looks for the place where a test stops holding in a list whose elements pass it up
to some place and fail it from there on.  It halves a window of the list: as long as the middle
element passes, the place lies behind it.

On a list that is not split by the test the answer is still determined by the halving, and it is
the same for everyone who searches the list with the test.
-/

namespace TableGroups

/-- Narrow the window of `size` places from `base` on until one is left; `p` tests a place. -/
def narrow (p : Nat → Bool) (base size : Nat) : Nat :=
  if 1 < size then
    let half := size / 2
    narrow p (if p (base + half) then base + half else base) (size - half)
  else base
termination_by size

/-- Whether the element at a place exists and passes a test. -/
def passesAt {α : Type} (p : α → Bool) (xs : List α) (place : Nat) : Bool :=
  xs[place]?.any p

/-- The number of elements in front of the place where the test stops holding. -/
def boundary {α : Type} (p : α → Bool) (xs : List α) : Nat :=
  let place := narrow (passesAt p xs) 0 xs.length
  if passesAt p xs place then place + 1 else place

end TableGroups
