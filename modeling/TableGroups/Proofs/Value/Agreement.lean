import TableGroups.Proofs.Value.Order

/-!
# Equality of fields beside equality of values

Fields are compared as numbers where floats are concerned (`Value.agrees`), and the order of the
stores tells every two values apart.  The two notions of equality differ in two ways only: NaN does
not agree with itself (`Value.agrees_self`), and the two zeros agree with each other
(`Value.eq_or_zeros_of_agrees`).
-/

namespace TableGroups

namespace Value

/-- Whether the value is a float that is not a number. -/
def isNaN : Value → Bool
  | .float64 x => x.isNaN
  | _ => false

/-- Only NaN does not agree with itself. -/
theorem agrees_self (v : Value) : v.agrees v = !v.isNaN := by
  cases v with
  | float64 x => cases hx : x.isNaN <;> simp [isNaN, agrees, Binary64.agrees, hx]
  | _ => simp [isNaN, agrees]

/-- What agrees with anything agrees with itself. -/
theorem agrees_self_of_agrees {v w : Value} (h : v.agrees w) : v.agrees v := by
  rw [agrees_self]
  cases v with
  | float64 x =>
    cases w with
    | float64 y =>
      have hnumbers : x.agrees y := h
      rw [Binary64.agrees, Bool.and_eq_true, Bool.and_eq_true] at hnumbers
      exact hnumbers.1.1
    | _ => cases h
  | _ => rfl

end Value

/-! ### Values that agree -/

theorem Binary64.eq_or_zeros_of_agrees {x y : Binary64} (h : x.agrees y) :
    x = y ∨ x.isZero ∧ y.isZero := by
  rw [agrees, Bool.and_eq_true, Bool.or_eq_true] at h
  rcases h.2 with hzero | hbits
  · exact Or.inr ((Bool.and_eq_true _ _).mp hzero)
  · exact Or.inl (congrArg Binary64.mk (beq_iff_eq.mp hbits))

/-- The two values are the two zeros of the floats. -/
def Value.AreZeros (v w : Value) : Prop :=
  ∃ x y, v = .float64 x ∧ w = .float64 y ∧ x.isZero ∧ y.isZero ∧ x ≠ y

theorem Value.AreZeros.ne {v w : Value} (h : v.AreZeros w) : v ≠ w := by
  obtain ⟨x, y, rfl, rfl, -, -, hne⟩ := h
  exact fun hxy => hne (Value.float64.inj hxy)

/-- Only the two zeros agree and are not the same value. -/
theorem Value.eq_or_zeros_of_agrees {v w : Value} (h : v.agrees w) : v = w ∨ v.AreZeros w := by
  by_cases hvw : v = w
  · exact Or.inl hvw
  · unfold agrees at h
    split at h
    · next x y =>
      rcases Binary64.eq_or_zeros_of_agrees h with rfl | hzero
      · exact absurd rfl hvw
      · exact Or.inr ⟨x, y, rfl, rfl, hzero.1, hzero.2, fun hxy => hvw (hxy ▸ rfl)⟩
    · exact absurd (beq_iff_eq.mp h) hvw

/-! ### Lists compared place by place -/

section

variable {α : Type} {r : α → α → Bool} {as bs : List α}

/-- Lists that are related place by place are equal, or differ at a place in what relates different
elements. -/
theorem eq_or_exists_of_isEqv {S : α → α → Prop} (hr : ∀ a b, r a b → a = b ∨ S a b)
    (h : as.isEqv bs r) :
    as = bs ∨ ∃ (p : Nat) (a b : α), as[p]? = some a ∧ bs[p]? = some b ∧ S a b := by
  induction as generalizing bs with
  | nil =>
    cases bs with
    | nil => exact .inl rfl
    | cons b bs => cases h
  | cons a as ih =>
    cases bs with
    | nil => cases h
    | cons b bs =>
      obtain ⟨hab, hrest⟩ := (Bool.and_eq_true _ _).mp h
      rcases hr a b hab with rfl | hdiffer
      · rcases ih hrest with rfl | ⟨p, x, y, hx, hy, hdiffer⟩
        · exact .inl rfl
        · exact .inr ⟨p + 1, x, y, hx, hy, hdiffer⟩
      · exact .inr ⟨0, a, b, rfl, rfl, hdiffer⟩

/-- A list that is related to another place by place is related to itself, if its elements are. -/
theorem isEqv_self_of_isEqv (hr : ∀ a b, r a b → r a a) (h : as.isEqv bs r) : as.isEqv as r := by
  induction as generalizing bs with
  | nil => rfl
  | cons a as ih =>
    cases bs with
    | nil => cases h
    | cons b bs =>
      obtain ⟨hab, hrest⟩ := (Bool.and_eq_true _ _).mp h
      exact (Bool.and_eq_true _ _).mpr ⟨hr a b hab, ih hrest⟩

end

end TableGroups
