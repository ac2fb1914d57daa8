import Mathlib.Data.List.Forall2

/-!
# Lists under functions that may fail

A function that may fail, mapped over a list, gives a list exactly if it gives an element for each
element.  Stated for `Option` and for `Except`, with the results place by place; what stands in one
of two lists that are related so has a partner in the other.  A chain of such functions succeeds
exactly if each of them does (`map_eq_ok_iff`, `bind_eq_ok_iff`).  Where the list fails, it fails as
the first element does that fails (`mapM_eq_error_iff`).
-/

namespace TableGroups

universe u v

variable {α : Type u} {β γ : Type v} {ε : Type v}

theorem mapM_eq_some_iff {f : α → Option β} {xs : List α} {ys : List β} :
    xs.mapM f = some ys ↔ List.Forall₂ (fun x y => f x = some y) xs ys := by
  induction xs generalizing ys with
  | nil => cases ys <;> simp
  | cons x xs ih =>
    rw [List.mapM_cons, List.forall₂_cons_left_iff]
    cases hx : f x with
    | none => simp
    | some y =>
      simp only [Option.pure_def, Option.bind_eq_bind, Option.bind_some,
        Option.bind_eq_some_iff, Option.some.injEq]
      constructor
      · rintro ⟨ys', hys, rfl⟩
        exact ⟨y, ys', rfl, ih.mp hys, rfl⟩
      · rintro ⟨y', ys', rfl, hys, rfl⟩
        exact ⟨ys', ih.mpr hys, rfl⟩

theorem mapM_congr {f g : α → Option β} {xs : List α} (h : ∀ x ∈ xs, f x = g x) :
    xs.mapM f = xs.mapM g := by
  induction xs with
  | nil => rfl
  | cons x xs ih =>
    rw [List.forall_mem_cons] at h
    rw [List.mapM_cons, List.mapM_cons, h.1, ih h.2]

/-- If the function succeeds on every element, there is a list of results. -/
theorem exists_mapM_eq_some {f : α → Option β} {xs : List α} (h : ∀ x ∈ xs, (f x).isSome) :
    ∃ ys, xs.mapM f = some ys := by
  induction xs with
  | nil => exact ⟨[], rfl⟩
  | cons x xs ih =>
    obtain ⟨y, hy⟩ := Option.isSome_iff_exists.mp (h x List.mem_cons_self)
    obtain ⟨ys, hys⟩ := ih fun x hx => h x (List.mem_cons_of_mem _ hx)
    exact ⟨y :: ys, mapM_eq_some_iff.mpr (.cons hy (mapM_eq_some_iff.mp hys))⟩

theorem exists_getElem?_of_forall₂ {R : α → β → Prop} {xs : List α} {ys : List β}
    (h : List.Forall₂ R xs ys) {i : Nat} {x : α} (hx : xs[i]? = some x) :
    ∃ y, ys[i]? = some y ∧ R x y := by
  obtain ⟨hi, rfl⟩ := List.getElem?_eq_some_iff.mp hx
  obtain ⟨hlength, hget⟩ := List.forall₂_iff_get.mp h
  exact ⟨ys[i], List.getElem?_eq_getElem (hlength ▸ hi), hget i hi (hlength ▸ hi)⟩

/-- The result at a place is that of the element there. -/
theorem getElem?_of_mapM_eq_some {f : α → Option β} {xs : List α} {ys : List β}
    (h : xs.mapM f = some ys) {i : Nat} {x : α} (hx : xs[i]? = some x) : ys[i]? = f x := by
  obtain ⟨y, hy, hxy⟩ := exists_getElem?_of_forall₂ (mapM_eq_some_iff.mp h) hx
  rw [hy, hxy]

/-- If no element is without a result, the results are all there are. -/
theorem filterMap_of_mapM_eq_some {f : α → Option β} {xs : List α} {ys : List β}
    (h : xs.mapM f = some ys) : xs.filterMap f = ys := by
  rw [mapM_eq_some_iff] at h
  induction h with
  | nil => rfl
  | cons hfirst _ ih => rw [List.filterMap_cons_some hfirst, ih]

/-- Lists of elements with the same results have the same lists of results. -/
theorem mapM_eq_of_forall₂ {f : α → Option β} {g : γ → Option β} {xs : List α} {zs : List γ}
    (h : List.Forall₂ (fun x z => f x = g z) xs zs) : xs.mapM f = zs.mapM g := by
  induction h with
  | nil => rfl
  | cons hfirst _ ih => rw [List.mapM_cons, List.mapM_cons, hfirst, ih]

/-- Leaving out elements leaves out their results. -/
theorem mapM_filter {f : α → Option β} {p : α → Bool} {q : β → Bool} {xs : List α} {ys : List β}
    (h : xs.mapM f = some ys) (hpq : ∀ x ∈ xs, ∀ y, f x = some y → p x = q y) :
    (xs.filter p).mapM f = some (ys.filter q) := by
  rw [mapM_eq_some_iff] at h ⊢
  induction h with
  | nil => exact .nil
  | @cons x y xs ys hxy _ ih =>
    rw [List.forall_mem_cons] at hpq
    rw [List.filter_cons, List.filter_cons, hpq.1 y hxy]
    split
    · exact .cons hxy (ih hpq.2)
    · exact ih hpq.2

/-- A test of elements that is a test of their results. -/
theorem any_eq_of_mapM_eq_some {f : α → Option β} {p : α → Bool} {q : β → Bool} {xs : List α}
    {ys : List β} (h : xs.mapM f = some ys) (hpq : ∀ x ∈ xs, ∀ y, f x = some y → p x = q y) :
    xs.any p = ys.any q := by
  rw [mapM_eq_some_iff] at h
  induction h with
  | nil => rfl
  | @cons x y xs ys hxy _ ih =>
    rw [List.forall_mem_cons] at hpq
    rw [List.any_cons, List.any_cons, hpq.1 y hxy, ih hpq.2]

theorem map_eq_ok_iff {f : β → γ} {x : Except ε β} {z : γ} :
    x.map f = .ok z ↔ ∃ y, x = .ok y ∧ f y = z := by
  cases x <;> simp [Except.map]

theorem exists_eq_ok_iff {x : Except ε β} : (∃ y, x = .ok y) ↔ ¬ ∃ e, x = .error e := by
  cases x <;> simp

theorem map_eq_error_iff {f : β → γ} {x : Except ε β} {e : ε} :
    x.map f = .error e ↔ x = .error e := by
  cases x <;> simp [Except.map]

theorem mapError_eq_ok_iff {δ : Type v} {f : ε → δ} {x : Except ε β} {y : β} :
    x.mapError f = .ok y ↔ x = .ok y := by
  cases x <;> simp [Except.mapError]

@[simp] theorem isOk_mapError {δ : Type v} (f : ε → δ) (x : Except ε β) :
    (x.mapError f).isOk = x.isOk := by
  cases x <;> rfl

theorem bind_eq_ok_iff {f : β → Except ε γ} {x : Except ε β} {z : γ} :
    (x >>= f) = .ok z ↔ ∃ y, x = .ok y ∧ f y = .ok z := by
  cases x <;> simp [bind, Except.bind]

theorem mapM_eq_ok_iff {f : α → Except ε β} {xs : List α} {ys : List β} :
    xs.mapM f = .ok ys ↔ List.Forall₂ (fun x y => f x = .ok y) xs ys := by
  induction xs generalizing ys with
  | nil => cases ys <;> simp [pure, Except.pure]
  | cons x xs ih =>
    rw [List.mapM_cons, List.forall₂_cons_left_iff]
    cases hx : f x with
    | error e => simp [bind, Except.bind]
    | ok y =>
      cases hxs : xs.mapM f with
      | error e =>
        simp only [bind, Except.bind, reduceCtorEq, false_iff]
        rintro ⟨y', ys', _, hys, _⟩
        rw [ih.mpr hys] at hxs
        cases hxs
      | ok ys' =>
        simp only [bind, Except.bind, pure, Except.pure, Except.ok.injEq]
        constructor
        · rintro rfl
          exact ⟨y, ys', rfl, ih.mp hxs, rfl⟩
        · rintro ⟨y', ys'', rfl, hys, rfl⟩
          rw [ih.mpr hys, Except.ok.injEq] at hxs
          rw [hxs]

/-- A list is related to some list exactly if each of its elements is related to something. -/
theorem exists_forall₂_iff {R : α → β → Prop} {xs : List α} :
    (∃ ys, List.Forall₂ R xs ys) ↔ ∀ x ∈ xs, ∃ y, R x y := by
  induction xs with
  | nil => simp
  | cons x xs ih =>
    rw [List.forall_mem_cons, ← ih]
    simp only [List.forall₂_cons_left_iff]
    constructor
    · rintro ⟨_, y, ys, hy, hys, rfl⟩
      exact ⟨⟨y, hy⟩, ys, hys⟩
    · rintro ⟨⟨y, hy⟩, ys, hys⟩
      exact ⟨y :: ys, y, ys, hy, hys, rfl⟩

/-- A list can be mapped exactly if each of its elements can. -/
theorem exists_mapM_eq_ok_iff {f : α → Except ε β} {xs : List α} :
    (∃ ys, xs.mapM f = .ok ys) ↔ ∀ x ∈ xs, ∃ y, f x = .ok y := by
  simp only [mapM_eq_ok_iff, exists_forall₂_iff]

/-- The element is the first of the list that has the property. -/
def FirstIn (p : α → Prop) (xs : List α) (x : α) : Prop :=
  ∃ front back, xs = front ++ x :: back ∧ (∀ y ∈ front, ¬ p y) ∧ p x

theorem FirstIn.holds {p : α → Prop} {xs : List α} {x : α} (h : FirstIn p xs x) : p x := by
  obtain ⟨-, -, -, -, hx⟩ := h
  exact hx

theorem firstIn_cons_iff {p : α → Prop} {x y : α} {xs : List α} :
    FirstIn p (x :: xs) y ↔ p x ∧ y = x ∨ ¬ p x ∧ FirstIn p xs y := by
  constructor
  · rintro ⟨front, back, hxs, hfront, hy⟩
    rcases List.cons_eq_append_iff.mp hxs with ⟨-, hsame⟩ | ⟨front, rfl, rfl⟩
    · obtain ⟨rfl, -⟩ := List.cons.inj hsame
      exact .inl ⟨hy, rfl⟩
    · rw [List.forall_mem_cons] at hfront
      exact .inr ⟨hfront.1, front, back, rfl, hfront.2, hy⟩
  · rintro (⟨hx, rfl⟩ | ⟨hx, front, back, rfl, hfront, hy⟩)
    · exact ⟨[], xs, rfl, by simp, hx⟩
    · exact ⟨x :: front, back, rfl, List.forall_mem_cons.mpr ⟨hx, hfront⟩, hy⟩

theorem exists_firstIn_iff {p : α → Prop} {xs : List α} :
    (∃ x, FirstIn p xs x) ↔ ∃ x ∈ xs, p x := by
  induction xs with
  | nil => simp [FirstIn]
  | cons x xs ih =>
    simp only [firstIn_cons_iff, exists_or, exists_and_left, exists_eq, and_true, ih,
      List.exists_mem_cons_iff]
    by_cases hx : p x <;> simp [hx]

theorem firstIn_congr {p q : α → Prop} {xs : List α} (h : ∀ x ∈ xs, p x ↔ q x) {x : α} :
    FirstIn p xs x ↔ FirstIn q xs x := by
  induction xs with
  | nil => simp [FirstIn]
  | cons y ys ih =>
    rw [List.forall_mem_cons] at h
    rw [firstIn_cons_iff, firstIn_cons_iff, h.1, ih h.2]

/-- What the map of a list fails with is what the first element fails with that has no result. -/
theorem mapM_eq_error_iff {f : α → Except ε β} {xs : List α} {e : ε} :
    xs.mapM f = .error e ↔ ∃ x, FirstIn (fun x => ∀ y, f x ≠ .ok y) xs x ∧ f x = .error e := by
  induction xs with
  | nil => simp [FirstIn, pure, Except.pure]
  | cons x xs ih =>
    rw [List.mapM_cons]
    simp only [firstIn_cons_iff]
    cases hx : f x with
    | error e' => simp [bind, Except.bind, hx]
    | ok y =>
      have hrest : (xs.mapM f >>= fun ys => pure (y :: ys)) = (xs.mapM f).map (y :: ·) := by
        cases xs.mapM f <;> rfl
      simp only [bind, Except.bind] at hrest ⊢
      rw [hrest, map_eq_error_iff, ih]
      simp

theorem exists_of_mem_left {R : α → β → Prop} {xs : List α} {ys : List β}
    (h : List.Forall₂ R xs ys) {x : α} (hx : x ∈ xs) : ∃ y ∈ ys, R x y := by
  induction h with
  | nil => cases hx
  | cons hfirst _ ih =>
    rcases List.mem_cons.mp hx with rfl | hrest
    · exact ⟨_, List.mem_cons_self, hfirst⟩
    · obtain ⟨y, hy, hxy⟩ := ih hrest
      exact ⟨y, List.mem_cons_of_mem _ hy, hxy⟩

theorem exists_of_mem_right {R : α → β → Prop} {xs : List α} {ys : List β}
    (h : List.Forall₂ R xs ys) {y : β} (hy : y ∈ ys) : ∃ x ∈ xs, R x y :=
  exists_of_mem_left h.flip hy

/-- A relation that a function decides relates a list to its image under the function alone. -/
theorem forall₂_iff_eq_map {R : α → β → Prop} {f : α → β} {xs : List α} {ys : List β}
    (h : ∀ x ∈ xs, ∀ y, R x y ↔ y = f x) : List.Forall₂ R xs ys ↔ ys = xs.map f := by
  induction xs generalizing ys with
  | nil => rw [List.forall₂_nil_left_iff, List.map_nil]
  | cons x xs ih =>
    rw [List.forall_mem_cons] at h
    simp only [List.forall₂_cons_left_iff, h.1, ih h.2, List.map_cons]
    constructor
    · rintro ⟨y, ys, rfl, rfl, rfl⟩
      rfl
    · rintro rfl
      exact ⟨_, _, rfl, rfl, rfl⟩

/-- Going from elements to values directly or through what the elements are mapped to. -/
theorem exists_mapM_filterMap {f : α → Except ε β} {g : β → Option γ} {h : α → Option γ}
    {xs : List α} (hxs : ∀ x ∈ xs, ∃ y, f x = .ok y ∧ g y = h x ∧ (h x).isSome) :
    ∃ ys, xs.mapM f = .ok ys ∧ xs.mapM h = some (ys.filterMap g) := by
  induction xs with
  | nil => exact ⟨[], rfl, rfl⟩
  | cons x xs ih =>
    obtain ⟨y, hy, hg, hsome⟩ := hxs x List.mem_cons_self
    obtain ⟨ys, hys, hzs⟩ := ih fun x hx => hxs x (List.mem_cons_of_mem _ hx)
    obtain ⟨z, hz⟩ := Option.isSome_iff_exists.mp hsome
    refine ⟨y :: ys, mapM_eq_ok_iff.mpr (.cons hy (mapM_eq_ok_iff.mp hys)), ?_⟩
    rw [List.filterMap_cons_some (hg.trans hz)]
    exact mapM_eq_some_iff.mpr (.cons hz (mapM_eq_some_iff.mp hzs))

end TableGroups
