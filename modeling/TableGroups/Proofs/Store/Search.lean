import Mathlib.Data.List.Basic
import TableGroups.Store.Search

/-!
# Binary search finds the boundary

A list is *split* by a test if no element passes behind one that fails.  On a split list the
halving search returns the number of elements that pass (`boundary_eq_length_filter`), so it cuts
the list into those that pass and those that fail (`take_boundary`, `drop_boundary`).
-/

namespace TableGroups

/-- No element of the list passes the test behind one that fails it. -/
def Splits {α : Type} (p : α → Bool) (xs : List α) : Prop :=
  xs.Pairwise fun a b => p b = true → p a = true

variable {α : Type} {p : α → Bool} {xs : List α}

theorem splits_const (answer : Bool) (xs : List α) : Splits (fun _ => answer) xs := by
  induction xs with
  | nil => exact List.Pairwise.nil
  | cons x xs ih => exact List.pairwise_cons.mpr ⟨fun _ _ h => h, ih⟩

/-- The search keeps the place that it looks for in its window. -/
theorem narrow_spec {q : Nat → Bool} {target : Nat} (hq : ∀ i, q i = true ↔ i < target)
    (base size : Nat) (hlo : base ≤ target) (hhi : target ≤ base + size) :
    narrow q base size ≤ target ∧ target ≤ narrow q base size + 1 := by
  fun_induction narrow q base size with
  | case1 base size hsize half ih =>
    have hhalf : half = size / 2 := rfl
    have hmid := hq (base + half)
    by_cases h : q (base + half) = true
    · -- the middle passes, so the place lies behind it
      rw [dif_pos h] at ih
      rw [if_pos h]
      exact ih (Nat.le_of_lt (hmid.mp h)) (by omega)
    · rw [dif_neg h] at ih
      rw [if_neg h]
      have : ¬ base + half < target := fun hlt => h (hmid.mpr hlt)
      exact ih hlo (by omega)
  | case2 base size hsize => omega

theorem narrow_le (q : Nat → Bool) (base size : Nat) : narrow q base size ≤ base + size := by
  fun_induction narrow q base size with
  | case1 base size hsize half ih =>
    have hhalf : half = size / 2 := rfl
    by_cases h : q (base + half) = true
    · rw [dif_pos h] at ih
      rw [if_pos h]
      omega
    · rw [dif_neg h] at ih
      rw [if_neg h]
      omega
  | case2 base size hsize => omega

/-- The search stays in the list, also if the test does not split it. -/
theorem boundary_le_length (p : α → Bool) (xs : List α) : boundary p xs ≤ xs.length := by
  have hplace := narrow_le (passesAt p xs) 0 xs.length
  unfold boundary
  dsimp only
  split_ifs with hpass
  · obtain ⟨x, hx, -⟩ := (Option.any_eq_true _ _).mp hpass
    exact (List.getElem?_eq_some_iff.mp hx).1
  · omega

theorem Splits.takeWhile_eq_filter (h : Splits p xs) : xs.takeWhile p = xs.filter p := by
  induction xs with
  | nil => rfl
  | cons x xs ih =>
    obtain ⟨hx, hxs⟩ := List.pairwise_cons.mp h
    by_cases hp : p x = true
    · rw [List.takeWhile_cons_of_pos hp, List.filter_cons_of_pos hp, ih hxs]
    · -- nothing passes behind the first element
      have hnone : ∀ y ∈ xs, ¬ p y = true := fun y hy hpy => hp (hx y hy hpy)
      rw [List.takeWhile_cons_of_neg hp, List.filter_cons_of_neg hp,
        List.filter_eq_nil_iff.mpr hnone]

theorem Splits.dropWhile_eq_filter (h : Splits p xs) :
    xs.dropWhile p = xs.filter fun x => !p x := by
  induction xs with
  | nil => rfl
  | cons x xs ih =>
    obtain ⟨hx, hxs⟩ := List.pairwise_cons.mp h
    by_cases hp : p x = true
    · rw [List.dropWhile_cons_of_pos hp, List.filter_cons_of_neg (by simp [hp]), ih hxs]
    · have hall : ∀ y ∈ xs, (!p y) = true := by
        intro y hy
        have : ¬ p y = true := fun hpy => hp (hx y hy hpy)
        simpa using this
      rw [List.dropWhile_cons_of_neg hp, List.filter_cons_of_pos (by simpa using hp),
        List.filter_eq_self.mpr hall]

/-- In a split list the places that pass are the first ones. -/
theorem Splits.passesAt_iff (h : Splits p xs) (place : Nat) :
    passesAt p xs place = true ↔ place < (xs.filter p).length := by
  rw [← h.takeWhile_eq_filter, passesAt]
  induction xs generalizing place with
  | nil => simp
  | cons x xs ih =>
    obtain ⟨hx, hxs⟩ := List.pairwise_cons.mp h
    by_cases hp : p x = true
    · rw [List.takeWhile_cons_of_pos hp]
      cases place with
      | zero => simp [hp]
      | succ place => simpa using ih hxs place
    · rw [List.takeWhile_cons_of_neg hp]
      simp only [List.length_nil, Nat.not_lt_zero, iff_false]
      cases place with
      | zero => simpa using hp
      | succ place =>
        rw [List.getElem?_cons_succ]
        intro hany
        obtain ⟨y, hy, hpy⟩ := (Option.any_eq_true _ _).mp hany
        exact hp (hx y (List.mem_of_getElem? hy) hpy)

/-- The search counts the elements that pass. -/
theorem boundary_eq_length_filter (h : Splits p xs) :
    boundary p xs = (xs.filter p).length := by
  have hlen : (xs.filter p).length ≤ xs.length := List.length_filter_le p xs
  obtain ⟨hle, hge⟩ := narrow_spec h.passesAt_iff 0 xs.length (Nat.zero_le _) (by omega)
  have hat := h.passesAt_iff (narrow (passesAt p xs) 0 xs.length)
  unfold boundary
  dsimp only
  split_ifs with hpass
  · have := hat.mp hpass
    omega
  · have : ¬ narrow (passesAt p xs) 0 xs.length < (xs.filter p).length :=
      fun hlt => hpass (hat.mpr hlt)
    omega

theorem take_boundary (h : Splits p xs) : xs.take (boundary p xs) = xs.filter p := by
  rw [boundary_eq_length_filter h, ← h.takeWhile_eq_filter]
  exact (List.prefix_iff_eq_take.mp (List.takeWhile_prefix p)).symm

theorem drop_boundary (h : Splits p xs) :
    xs.drop (boundary p xs) = xs.filter fun x => !p x := by
  have hcut := List.take_append_drop (boundary p xs) xs
  rw [take_boundary h, ← h.takeWhile_eq_filter] at hcut
  rw [← h.dropWhile_eq_filter]
  exact List.append_cancel_left (hcut.trans List.takeWhile_append_dropWhile.symm)

/-- Cutting a list at the ends of two initial segments leaves what is in one and not the other. -/
theorem drop_take_of_splits {q : α → Bool} (hp : Splits p xs)
    (hq : Splits q xs) :
    (xs.take (xs.filter q).length).drop (xs.filter p).length =
      xs.filter fun x => !p x && q x := by
  induction xs with
  | nil => rfl
  | cons x xs ih =>
    obtain ⟨hpx, hpxs⟩ := List.pairwise_cons.mp hp
    obtain ⟨hqx, hqxs⟩ := List.pairwise_cons.mp hq
    by_cases hqt : q x = true
    · by_cases hpt : p x = true
      · -- the element is in both segments
        rw [List.filter_cons_of_pos hqt, List.filter_cons_of_pos hpt, List.length_cons,
          List.length_cons, List.take_succ_cons, List.drop_succ_cons, ih hpxs hqxs,
          List.filter_cons_of_neg (by simp [hpt])]
      · -- the first segment is empty
        have hnone : ∀ y ∈ x :: xs, ¬ p y = true := by
          intro y hy hpy
          rcases List.mem_cons.mp hy with rfl | hy
          · exact hpt hpy
          · exact hpt (hpx y hy hpy)
        rw [List.filter_eq_nil_iff.mpr hnone, List.length_nil, List.drop_zero,
          ← boundary_eq_length_filter hq, take_boundary hq]
        refine List.filter_congr fun y hy => ?_
        simp [hnone y hy]
    · -- the second segment is empty
      have hnone : ∀ y ∈ x :: xs, ¬ q y = true := by
        intro y hy hqy
        rcases List.mem_cons.mp hy with rfl | hy
        · exact hqt hqy
        · exact hqt (hqx y hy hqy)
      rw [List.filter_eq_nil_iff.mpr hnone, List.length_nil, List.take_zero, List.drop_nil]
      refine (List.filter_eq_nil_iff.mpr fun y hy => ?_).symm
      simp [hnone y hy]

/-- Inserting at a place cuts the list there. -/
theorem insertIdx_eq_take_append_drop (x : α) (xs : List α) {place : Nat}
    (h : place ≤ xs.length) : xs.insertIdx place x = xs.take place ++ x :: xs.drop place := by
  induction place generalizing xs with
  | zero => rfl
  | succ place ih =>
    cases xs with
    | nil => simp at h
    | cons y ys =>
      rw [List.insertIdx_succ_cons, ih ys (by simpa using h), List.take_succ_cons,
        List.drop_succ_cons, List.cons_append]

end TableGroups
