import Mathlib.Logic.Basic
import Mathlib.Tactic.ByContra
import TableGroups.KeyComparator
import TableGroups.Proofs.Value.RowOrder

/-!
# Comparing keys is a partial order

A comparison of keys fails where two fields of different kinds meet before anything is decided, so
it is only a partial order.  Exchanging the rows swaps the outcome, and so does turning every
direction round, and a failure stays a failure (`compareRuns_comm`, `compareRuns_reversed`).  If one
key does not come after a second and the second not after a third, then the first and the third can
be compared and the first does not come after the third (`NotAfter.trans`).  That the comparison
succeeds is the part with a reason: a field between two others can be comparable with both without
being of their kind only if it is null, and a null is at the end of its column's order.

Wherever it succeeds the comparison agrees with the order of index rows
(`compareAlong_of_compareFields`), and it does succeed where all fields that meet are comparable.
On rows that have all the fields it fails exactly where two values clash
(`compareRuns_eq_error_iff`).

* `KeyComparator.compareRuns_partialOrder`: the laws of exchange, of turning round and of
  transitivity for any three rows and offsets.
-/

namespace TableGroups

variable {d : Direction} {ds : List Direction} {a b c : Value} {as bs cs : List Value}
  {o o₁ o₂ : Ordering} {n m k : Nat}

/-! ### One field -/

/-- Values around a value that they are ordered with are ordered with each other. -/
theorem Value.Comparable.trans_of_lt (hab : Comparable a b) (hbc : Comparable b c)
    (h1 : d.orient (a.canonicalCompare b) = .lt) (h2 : d.orient (b.canonicalCompare c) = .lt) :
    Comparable a c := by
  rcases hab with rfl | rfl | hab
  · exact Or.inl rfl
  · -- a null is lowest, so it stands between two values in neither direction
    cases a <;> cases c <;> cases d <;>
      simp_all [canonicalCompare, kindRank, strictCompare?, Direction.orient,
        Nat.compare_eq_ite_lt, Comparable]
  · rcases hbc with rfl | rfl | hbc
    · exact Or.inl (eq_null_of_kindRank_eq_zero hab)
    · exact Or.inr (Or.inl rfl)
    · exact Or.inr (Or.inr (hab.trans hbc))

/-- The failure of the comparison with the rows exchanged. -/
def ComparisonError.swap : ComparisonError → ComparisonError
  | .incomparable a b => .incomparable b a
  | .outsideRow field => .outsideRow field

namespace KeyComparator

@[simp] theorem compareFields_nil (n : Nat) (as bs : List Value) :
    compareFields n [] as bs = .ok .eq := by
  cases as <;> cases bs <;> rfl

/-- The first field decides if its values differ, and then they have to be comparable. -/
theorem compareFields_cons_eq_ok_iff :
    compareFields n (d :: ds) (a :: as) (b :: bs) = .ok o ↔
      (a = b ∧ compareFields (n + 1) ds as bs = .ok o) ∨
        (a ≠ b ∧ a.Comparable b ∧ d.orient (a.canonicalCompare b) = o) := by
  rw [compareFields]
  cases hstrict : a.strictCompare? b with
  | none =>
    have hnot : ¬ a.Comparable b := by
      intro hab
      have := Value.strictCompare?_eq_some_iff.mpr ⟨hab, rfl⟩
      rw [hstrict] at this
      cases this
    have hne : a ≠ b := by
      rintro rfl
      exact hnot (Or.inr (Or.inr rfl))
    simp [hnot, hne]
  | some outcome =>
    obtain ⟨hab, rfl⟩ := Value.strictCompare?_eq_some_iff.mp hstrict
    by_cases heq : a = b
    · subst heq
      simp
    · cases hout : a.canonicalCompare b with
      | eq => exact absurd (Value.eq_of_canonicalCompare hout) heq
      | lt => simp [heq, hab]
      | gt => simp [heq, hab]

theorem compareFields_comm (n : Nat) (ds : List Direction) (as bs : List Value) :
    compareFields n ds bs as =
      ((compareFields n ds as bs).map Ordering.swap).mapError ComparisonError.swap := by
  fun_induction compareFields n ds as bs with
  | case1 n as bs => exact compareFields_nil ..
  | case2 n d ds a as b bs hstrict =>
    rw [compareFields, Value.strictCompare?_swap a b, hstrict]
    rfl
  | case3 n d ds a as b bs hstrict ih =>
    rw [compareFields, Value.strictCompare?_swap a b, hstrict]
    exact ih
  | case4 n d ds a as b bs outcome hdecides hstrict =>
    rw [compareFields, Value.strictCompare?_swap a b, hstrict]
    cases outcome with
    | eq => exact absurd rfl hdecides
    | lt => exact congrArg Except.ok (d.orient_swap .lt)
    | gt => exact congrArg Except.ok (d.orient_swap .gt)
  | case5 n d ds as bs hshort =>
    cases as with
    | nil => cases bs <;> rfl
    | cons a as =>
      cases bs with
      | nil => rfl
      | cons b bs => exact (hshort a as b bs rfl rfl).elim

theorem compareFields_swap (h : compareFields n ds as bs = .ok o) :
    compareFields n ds bs as = .ok o.swap := by
  rw [compareFields_comm, h]
  rfl

theorem compareFields_reverse (n : Nat) (ds : List Direction) (as bs : List Value) :
    compareFields n (ds.map Direction.reverse) as bs =
      (compareFields n ds as bs).map Ordering.swap := by
  fun_induction compareFields n ds as bs with
  | case1 n as bs => exact compareFields_nil ..
  | case2 n d ds a as b bs hstrict => simp only [List.map_cons, compareFields, hstrict]; rfl
  | case3 n d ds a as b bs hstrict ih => simpa only [List.map_cons, compareFields, hstrict] using ih
  | case4 n d ds a as b bs outcome hdecides hstrict =>
    cases outcome with
    | eq => exact absurd rfl hdecides
    | lt => simp [compareFields, hstrict, Except.map]
    | gt => simp [compareFields, hstrict, Except.map]
  | case5 n d ds as bs hshort =>
    cases as with
    | nil => rfl
    | cons a as =>
      cases bs with
      | nil => rfl
      | cons b bs => exact (hshort a as b bs rfl rfl).elim

theorem compareFields_isLE_trans (h1 : compareFields n ds as bs = .ok o₁) (hle1 : o₁.isLE)
    (h2 : compareFields n ds bs cs = .ok o₂) (hle2 : o₂.isLE) :
    ∃ o, compareFields n ds as cs = .ok o ∧ o.isLE ∧ (o = .eq → o₁ = .eq ∧ o₂ = .eq) := by
  induction ds generalizing as bs cs n with
  | nil =>
    rw [compareFields_nil, Except.ok.injEq] at h1 h2
    exact ⟨.eq, compareFields_nil .., rfl, fun _ => ⟨h1.symm, h2.symm⟩⟩
  | cons d ds ih =>
    cases as with
    | nil => simp [compareFields] at h1
    | cons a as =>
    cases bs with
    | nil => simp [compareFields] at h1
    | cons b bs =>
    cases cs with
    | nil => simp [compareFields] at h2
    | cons c cs =>
      rw [compareFields_cons_eq_ok_iff] at h1 h2
      simp only [compareFields_cons_eq_ok_iff]
      -- an outcome that decides is not `eq`
      have hdecides : ∀ {x y : Value}, x ≠ y → d.orient (x.canonicalCompare y) ≠ .eq := by
        intro x y hne heq
        exact hne (Value.eq_of_canonicalCompare ((Direction.orient_eq_eq_iff _ _).mp heq))
      rcases h1 with ⟨rfl, hrest1⟩ | ⟨hne1, hab, rfl⟩
      · rcases h2 with ⟨rfl, hrest2⟩ | ⟨hne2, hbc, rfl⟩
        · obtain ⟨o, ho, hle, heq⟩ := ih hrest1 hrest2
          exact ⟨o, Or.inl ⟨rfl, ho⟩, hle, heq⟩
        · exact ⟨_, Or.inr ⟨hne2, hbc, rfl⟩, hle2, fun heq => absurd heq (hdecides hne2)⟩
      · rcases h2 with ⟨rfl, hrest2⟩ | ⟨hne2, hbc, rfl⟩
        · exact ⟨_, Or.inr ⟨hne1, hab, rfl⟩, hle1, fun heq => absurd heq (hdecides hne1)⟩
        · have hlt1 : d.orient (a.canonicalCompare b) = .lt := by
            cases ho : d.orient (a.canonicalCompare b) <;> simp_all
          have hlt2 : d.orient (b.canonicalCompare c) = .lt := by
            cases ho : d.orient (b.canonicalCompare c) <;> simp_all
          have hlt := @Std.TransCmp.lt_trans _
            (fun x y : Value => d.orient (x.canonicalCompare y)) _ a b c hlt1 hlt2
          have hne : a ≠ c := by
            rintro rfl
            rw [Value.canonicalCompare_self,
              Direction.orient_eq] at hlt
            cases hlt
          refine ⟨.lt, Or.inr ⟨hne, hab.trans_of_lt hbc hlt1 hlt2, hlt⟩, rfl, ?_⟩
          rintro ⟨⟩

/-- An outcome of the comparison is that of the canonical order. -/
theorem compareAlong_of_compareFields (h : compareFields n ds as bs = .ok o) :
    compareAlong ds as bs = o := by
  induction ds generalizing as bs n with
  | nil =>
    rw [compareFields_nil, Except.ok.injEq] at h
    rw [← h]
    rfl
  | cons d ds ih =>
    cases as with
    | nil => simp [compareFields] at h
    | cons a as =>
      cases bs with
      | nil => simp [compareFields] at h
      | cons b bs =>
        rw [compareAlong_cons]
        rcases compareFields_cons_eq_ok_iff.mp h with ⟨rfl, hrest⟩ | ⟨hne, -, rfl⟩
        · rw [Value.canonicalCompare_self, Direction.orient_eq,
            ih hrest]
          rfl
        · have hdecides : d.orient (a.canonicalCompare b) ≠ .eq := fun heq =>
            hne (Value.eq_of_canonicalCompare ((Direction.orient_eq_eq_iff _ _).mp heq))
          cases ho : d.orient (a.canonicalCompare b) <;> simp_all

/-- Where every two fields that meet are comparable, the comparison succeeds. -/
theorem compareFields_of_comparable
    (h : ∀ p < ds.length, ∃ a b, as[p]? = some a ∧ bs[p]? = some b ∧ a.Comparable b) (n : Nat) :
    compareFields n ds as bs = .ok (compareAlong ds as bs) := by
  suffices hsome : ∃ o, compareFields n ds as bs = .ok o by
    obtain ⟨o, ho⟩ := hsome
    rw [ho, compareAlong_of_compareFields ho]
  induction ds generalizing as bs n with
  | nil => exact ⟨.eq, compareFields_nil ..⟩
  | cons d ds ih =>
    obtain ⟨a, b, ha, hb, hab⟩ := h 0 (Nat.zero_lt_succ _)
    cases as with
    | nil => simp at ha
    | cons a' as =>
      cases bs with
      | nil => simp at hb
      | cons b' bs =>
        simp only [List.getElem?_cons_zero, Option.some.injEq] at ha hb
        subst ha hb
        simp only [compareFields_cons_eq_ok_iff]
        by_cases heq : a' = b'
        · obtain ⟨o, ho⟩ := ih (fun p hp => by simpa using h (p + 1) (Nat.succ_lt_succ hp)) (n + 1)
          exact ⟨o, Or.inl ⟨heq, ho⟩⟩
        · exact ⟨_, Or.inr ⟨heq, hab, rfl⟩⟩

/-- Rows that are long enough can fail to be compared at one place only: the fields before it are
equal, and the two fields there have no common order. -/
theorem exists_of_compareFields_error {e : ComparisonError} (has : ds.length ≤ as.length)
    (hbs : ds.length ≤ bs.length) (h : compareFields n ds as bs = .error e) :
    ∃ a b place, e = .incomparable a b ∧ place < ds.length ∧ as[place]? = some a ∧
      bs[place]? = some b ∧ a.strictCompare? b = none ∧ as.take place = bs.take place := by
  induction ds generalizing as bs n with
  | nil =>
    rw [compareFields_nil] at h
    cases h
  | cons d ds ih =>
    obtain ⟨a, as, rfl⟩ := List.exists_cons_of_length_pos (Nat.zero_lt_of_lt has)
    obtain ⟨b, bs, rfl⟩ := List.exists_cons_of_length_pos (Nat.zero_lt_of_lt hbs)
    rw [compareFields] at h
    cases hstrict : a.strictCompare? b with
    | none =>
      -- the first fields do not compare
      simp only [hstrict, Except.error.injEq] at h
      exact ⟨a, b, 0, h.symm, Nat.zero_lt_succ _, rfl, rfl, hstrict, rfl⟩
    | some outcome =>
      cases outcome with
      | lt => simp [hstrict] at h
      | gt => simp [hstrict] at h
      | eq =>
        -- they are equal, and the failure lies further on
        simp only [hstrict] at h
        obtain rfl := Value.eq_of_canonicalCompare (Value.strictCompare?_eq_some_iff.mp hstrict).2
        obtain ⟨a', b', place, rfl, hplace, ha, hb, hnone, htake⟩ :=
          ih (Nat.le_of_succ_le_succ has) (Nat.le_of_succ_le_succ hbs) h
        refine ⟨a', b', place + 1, rfl, Nat.succ_lt_succ hplace, ha, hb, hnone, ?_⟩
        rw [List.take_succ_cons, List.take_succ_cons, htake]

/-- The comparison fails at the first place at which two values of different kinds meet. -/
theorem compareFields_of_strictCompare?_eq_none {place : Nat} (hplace : place < ds.length)
    (ha : as[place]? = some a) (hb : bs[place]? = some b) (hstrict : a.strictCompare? b = none)
    (htake : as.take place = bs.take place) :
    compareFields n ds as bs = .error (.incomparable a b) := by
  induction ds generalizing as bs n place with
  | nil => exact absurd hplace (Nat.not_lt_zero _)
  | cons d ds ih =>
    cases as with
    | nil => cases ha
    | cons a' as =>
    cases bs with
    | nil => cases hb
    | cons b' bs =>
      cases place with
      | zero =>
        obtain rfl := Option.some.inj ha
        obtain rfl := Option.some.inj hb
        rw [compareFields, hstrict]
      | succ place =>
        rw [List.take_succ_cons, List.take_succ_cons, List.cons.injEq] at htake
        obtain ⟨rfl, htake⟩ := htake
        rw [compareFields, Value.strictCompare?_self]
        exact ih (Nat.lt_of_succ_lt_succ hplace) ha hb htake

/-- The fields begin with values that fit these kinds. -/
def BeginsWith (kinds : List FieldKind) (fields : List Value) : Prop :=
  ∀ (p : Nat) (kind : FieldKind), kinds[p]? = some kind →
    ∃ value : Value, fields[p]? = some value ∧ value.fits kind

/-- Fields of common kinds can be compared, unless a kind says nothing. -/
theorem compareFields_of_beginsWith {kinds : List FieldKind} (hlen : ds.length = kinds.length)
    (hkinds : ∀ kind ∈ kinds, kind ≠ .any) (has : BeginsWith kinds as)
    (hbs : BeginsWith kinds bs) (n : Nat) :
    compareFields n ds as bs = .ok (compareAlong ds as bs) := by
  apply compareFields_of_comparable
  intro p hp
  have hkind := List.getElem?_eq_getElem (hlen ▸ hp)
  obtain ⟨a, ha, hafits⟩ := has p _ hkind
  obtain ⟨b, hb, hbfits⟩ := hbs p _ hkind
  exact ⟨a, b, ha, hb, Value.comparable_of_fits (hkinds _ (List.mem_of_getElem? hkind)) hafits
    hbfits⟩

/-! ### Runs of fields -/

variable {comparator : KeyComparator} {l r s : List Value} {i j q : Nat}

/-- Exchanging two rows, each with its offset, swaps the outcome, and a failure names its two values
the other way round. -/
theorem compareRuns_comm (comparator : KeyComparator) (l : List Value) (i : Nat) (r : List Value)
    (j : Nat) :
    comparator.compareRuns r j l i =
      ((comparator.compareRuns l i r j).map Ordering.swap).mapError ComparisonError.swap :=
  compareFields_comm ..

theorem compareRuns_swap (h : comparator.compareRuns l i r j = .ok o) :
    comparator.compareRuns r j l i = .ok o.swap :=
  compareFields_swap h

/-- The comparator with every direction turned round. -/
def reversed (comparator : KeyComparator) : KeyComparator :=
  ⟨comparator.directions.map Direction.reverse⟩

/-- Turning every direction round swaps the outcome and keeps a failure. -/
theorem compareRuns_reversed (comparator : KeyComparator) (l : List Value) (i : Nat)
    (r : List Value) (j : Nat) :
    comparator.reversed.compareRuns l i r j =
      (comparator.compareRuns l i r j).map Ordering.swap :=
  compareFields_reverse ..

/-- Two runs of fields are equal up to a place where `a` meets `b`, and these are two values that
are not null and of different kinds. -/
def Clash (comparator : KeyComparator) (l : List Value) (i : Nat) (r : List Value) (j : Nat)
    (a b : Value) : Prop :=
  ∃ place < comparator.width, l[i + place]? = some a ∧ r[j + place]? = some b ∧
    a ≠ .null ∧ b ≠ .null ∧ a.kind? ≠ b.kind? ∧
      (l.drop i).take place = (r.drop j).take place

/-- **A comparison fails for a reason.**  If both rows have all fields that are compared, then a
failure names two values that meet and clash. -/
theorem exists_clash_of_compareRuns {e : ComparisonError} (hl : i + comparator.width ≤ l.length)
    (hr : j + comparator.width ≤ r.length) (h : comparator.compareRuns l i r j = .error e) :
    ∃ a b, e = .incomparable a b ∧ comparator.Clash l i r j a b := by
  have hl' : comparator.directions.length ≤ (l.drop i).length := by
    rw [List.length_drop]
    exact Nat.le_sub_of_add_le' hl
  have hr' : comparator.directions.length ≤ (r.drop j).length := by
    rw [List.length_drop]
    exact Nat.le_sub_of_add_le' hr
  obtain ⟨a, b, place, rfl, hplace, ha, hb, hnone, htake⟩ := exists_of_compareFields_error hl' hr' h
  obtain ⟨hanull, hbnull, hkind⟩ := Value.strictCompare?_eq_none_iff.mp hnone
  rw [List.getElem?_drop] at ha hb
  exact ⟨a, b, rfl, place, hplace, ha, hb, hanull, hbnull, hkind, htake⟩

/-- Two values that clash are the reason of a failure. -/
theorem Clash.compareRuns_eq_error (h : comparator.Clash l i r j a b) :
    comparator.compareRuns l i r j = .error (.incomparable a b) := by
  obtain ⟨place, hplace, ha, hb, hanull, hbnull, hkind, htake⟩ := h
  rw [← List.getElem?_drop] at ha hb
  exact compareFields_of_strictCompare?_eq_none hplace ha hb
    (Value.strictCompare?_eq_none_iff.mpr ⟨hanull, hbnull, hkind⟩) htake

/-- On rows with all fields that are compared, failures are clashes. -/
theorem compareRuns_eq_error_iff {e : ComparisonError} (hl : i + comparator.width ≤ l.length)
    (hr : j + comparator.width ≤ r.length) :
    comparator.compareRuns l i r j = .error e ↔
      ∃ a b, e = .incomparable a b ∧ comparator.Clash l i r j a b := by
  constructor
  · exact exists_clash_of_compareRuns hl hr
  · rintro ⟨a, b, rfl, hclash⟩
    exact hclash.compareRuns_eq_error

/-- The first key can be compared with the second and does not come after it. -/
def NotAfter (comparator : KeyComparator) (l : List Value) (i : Nat) (r : List Value) (j : Nat) :
    Prop :=
  ∃ o, comparator.compareRuns l i r j = .ok o ∧ o.isLE

instance : Decidable (comparator.NotAfter l i r j) :=
  match h : comparator.compareRuns l i r j with
  | .error e => .isFalse fun ⟨o, ho, _⟩ => by rw [h] at ho; cases ho
  | .ok o =>
    if hle : o.isLE then .isTrue ⟨o, h, hle⟩
    else .isFalse fun ⟨o', ho', hle'⟩ => by
      rw [h] at ho'
      cases ho'
      exact hle hle'

theorem NotAfter.trans (h1 : comparator.NotAfter l i r j) (h2 : comparator.NotAfter r j s q) :
    comparator.NotAfter l i s q := by
  obtain ⟨o₁, ho₁, hle₁⟩ := h1
  obtain ⟨o₂, ho₂, hle₂⟩ := h2
  obtain ⟨o, ho, hle, -⟩ := compareFields_isLE_trans ho₁ hle₁ ho₂ hle₂
  exact ⟨o, ho, hle⟩

/-- What comes before a key comes before the keys that do not come before that key. -/
theorem compareRuns_lt_of_lt_of_notAfter (h1 : comparator.compareRuns l i r j = .ok .lt)
    (h2 : comparator.NotAfter r j s q) : comparator.compareRuns l i s q = .ok .lt := by
  obtain ⟨o₂, ho₂, hle₂⟩ := h2
  obtain ⟨o, ho, hle, heq⟩ := compareFields_isLE_trans h1 rfl ho₂ hle₂
  have : o ≠ .eq := fun h => by cases (heq h).1
  cases o with
  | lt => exact ho
  | eq => exact absurd rfl this
  | gt => cases hle

/-- Keys that are equal to one key are equal. -/
theorem compareRuns_eq_trans (h1 : comparator.compareRuns l i r j = .ok .eq)
    (h2 : comparator.compareRuns r j s q = .ok .eq) :
    comparator.compareRuns l i s q = .ok .eq := by
  obtain ⟨o, ho, hle, -⟩ := compareFields_isLE_trans h1 rfl h2 rfl
  -- going back, the third key does not come after the first either
  obtain ⟨o', ho', hle', -⟩ :=
    compareFields_isLE_trans (compareRuns_swap h2) rfl (compareRuns_swap h1) rfl
  have hswap : o.swap = o' := Except.ok.inj ((compareRuns_swap ho).symm.trans ho')
  subst hswap
  cases o with
  | eq => exact ho
  | lt => cases hle'
  | gt => cases hle

/-- **Comparing keys is a partial order.**  For all rows and offsets: exchanging two rows, each with
its offset, swaps the outcome, and the comparison fails exactly if it failed before, at the same two
values.  Turning every direction round swaps the outcome and keeps every failure.  If two
comparisons in a row succeed and in neither the first key comes after the second, then the keys at
the two ends can be compared as well, the first of them does not come after the last, and they are
equal only if all three are. -/
theorem compareRuns_partialOrder (comparator : KeyComparator) (a b c : List Value) (i j k : Nat) :
    comparator.compareRuns b j a i =
        ((comparator.compareRuns a i b j).map Ordering.swap).mapError ComparisonError.swap ∧
      comparator.reversed.compareRuns a i b j =
        (comparator.compareRuns a i b j).map Ordering.swap ∧
      ∀ o₁ o₂, comparator.compareRuns a i b j = .ok o₁ → o₁ ≠ .gt →
        comparator.compareRuns b j c k = .ok o₂ → o₂ ≠ .gt →
        ∃ o, comparator.compareRuns a i c k = .ok o ∧ o ≠ .gt ∧
          (o = .eq ↔ o₁ = .eq ∧ o₂ = .eq) := by
  refine ⟨compareRuns_comm .., compareRuns_reversed .., ?_⟩
  intro o₁ o₂ h1 hle1 h2 hle2
  obtain ⟨o, ho, hle, heq⟩ := compareFields_isLE_trans h1 (Ordering.isLE_iff_ne_gt.mpr hle1) h2
    (Ordering.isLE_iff_ne_gt.mpr hle2)
  refine ⟨o, ho, Ordering.isLE_iff_ne_gt.mp hle, heq, ?_⟩
  rintro ⟨rfl, rfl⟩
  exact Except.ok.inj (ho.symm.trans (compareRuns_eq_trans h1 h2))

/-- Three keys in a descending and an ascending column, the third with a null.  A flag meets a
number behind the null, which has decided before. -/
theorem compareRuns_partialOrder_sample :
    let comparator : KeyComparator := ⟨[.desc, .asc]⟩
    let a : List Value := [.text "x", .int 5, .bool false]
    let b : List Value := [.int 5, .bool true]
    let c : List Value := [.null, .int 3]
    let t : List Value := [.text "5", .null]
    comparator.compareRuns a 1 b 0 = .ok .lt ∧ comparator.compareRuns b 0 c 0 = .ok .lt ∧
      comparator.compareRuns a 1 c 0 = .ok .lt ∧
      comparator.compareRuns c 0 a 1 = .ok .gt ∧ comparator.reversed.compareRuns a 1 c 0 = .ok .gt ∧
      comparator.compareRuns a 1 t 0 = .error (.incomparable (.int 5) (.text "5")) ∧
      comparator.compareRuns t 0 a 1 = .error (.incomparable (.text "5") (.int 5)) := by
  intro comparator a b c t
  have hab : comparator.compareRuns a 1 b 0 = .ok .lt := rfl
  have hbc : comparator.compareRuns b 0 c 0 = .ok .lt := rfl
  have hat : comparator.compareRuns a 1 t 0 = .error (.incomparable (.int 5) (.text "5")) :=
    rfl
  obtain ⟨-, -, htrans⟩ := comparator.compareRuns_partialOrder a b c 1 0 0
  obtain ⟨o, hac, hle, heq⟩ := htrans .lt .lt hab (by decide) hbc (by decide)
  obtain rfl : o = .lt := by
    cases o with
    | lt => rfl
    | eq => cases (heq.mp rfl).1
    | gt => exact absurd rfl hle
  obtain ⟨hswap, hreversed, -⟩ := comparator.compareRuns_partialOrder a c b 1 0 0
  obtain ⟨hfails, -, -⟩ := comparator.compareRuns_partialOrder a t b 1 0 0
  refine ⟨hab, hbc, hac, ?_, ?_, hat, ?_⟩
  · rw [hswap, hac]
    rfl
  · rw [hreversed, hac]
    rfl
  · rw [hfails, hat]
    rfl

end KeyComparator

end TableGroups
