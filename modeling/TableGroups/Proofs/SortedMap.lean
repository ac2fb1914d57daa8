import Mathlib.Data.List.Basic
import TableGroups.SortedMap

/-!
# What a sorted map holds

`find?_eq_some_iff` reads the entries of a map off its look-ups, so that a statement about all
values of a map is one about look-ups (`mem_values_iff`).
-/

namespace TableGroups.SortedMap

universe u v

variable {κ : Type u} {ν : Type v} [Ord κ] [Std.LawfulEqOrd κ]
variable {m : SortedMap κ ν} {k : κ} {v : ν}

/-- A key has a value exactly if the two are an entry. -/
theorem find?_eq_some_iff : m.find? k = some v ↔ (k, v) ∈ m.entries := by
  obtain ⟨entries, sorted⟩ := m
  simp only [find?]
  induction entries with
  | nil => simp
  | cons e rest ih =>
    obtain ⟨hfirst, hrest⟩ := List.pairwise_cons.mp sorted
    by_cases hk : compare k e.1 = .eq
    · -- the first entry decides, and no later one has its key
      have hkey : k = e.1 := Std.LawfulEqCmp.eq_of_compare hk
      have hlater : (k, v) ∉ rest := by
        intro hmem
        have hlt := hfirst _ hmem
        have hself : compare k k = .eq := Std.ReflCmp.compare_self
        rw [← hkey, hself] at hlt
        cases hlt
      rw [List.find?_cons_of_pos (by simp [hk]), List.mem_cons]
      simp only [Option.map_some, Option.some.injEq, hlater, or_false]
      obtain ⟨k', v'⟩ := e
      simp_all [eq_comm]
    · have hne : (k, v) ≠ e := by
        rintro rfl
        exact hk Std.ReflCmp.compare_self
      rw [List.find?_cons_of_neg (by simpa using hk), List.mem_cons]
      simp only [hne, false_or]
      exact ih hrest

/-- A value is held exactly if some key has it. -/
theorem mem_values_iff : v ∈ m.values ↔ ∃ k, m.find? k = some v := by
  simp only [values, List.mem_map, find?_eq_some_iff]
  constructor
  · rintro ⟨⟨k, w⟩, hmem, rfl⟩
    exact ⟨k, hmem⟩
  · rintro ⟨k, hmem⟩
    exact ⟨(k, v), hmem, rfl⟩

/-- Filtering keeps the values that pass the test. -/
theorem find?_filter_eq_some_iff {p : κ → ν → Bool} :
    (m.filter p).find? k = some v ↔ m.find? k = some v ∧ p k v := by
  simp only [find?_eq_some_iff, filter, List.mem_filter]

theorem nodup_keys (m : SortedMap κ ν) : m.keys.Nodup := by
  rw [keys, List.Nodup, List.pairwise_map]
  refine m.sorted.imp fun {a b} hlt heq => ?_
  have hself : compare b.1 b.1 = .eq := Std.ReflCmp.compare_self
  rw [heq, hself] at hlt
  cases hlt

/-- If every value names its key, no two values name the same. -/
theorem nodup_map_values {name : ν → κ} (h : ∀ k v, m.find? k = some v → name v = k) :
    (m.values.map name).Nodup := by
  have hkeys : m.values.map name = m.keys := by
    rw [values, keys, List.map_map]
    refine List.map_congr_left fun entry hentry => ?_
    exact h entry.1 entry.2 (find?_eq_some_iff.mpr hentry)
  rw [hkeys]
  exact m.nodup_keys

variable [Std.TransOrd κ]

/-- Inserting gives the key its value. -/
@[simp] theorem find?_insert_self (m : SortedMap κ ν) (k : κ) (v : ν) :
    (m.insert k v).find? k = some v := by
  rw [find?_insert, if_pos Std.ReflCmp.compare_self]

/-- The value of a new key takes its place between the values that are there. -/
theorem exists_values_insert (h : m.find? k = none) (v : ν) :
    ∃ front back, m.values = front ++ back ∧ (m.insert k v).values = front ++ v :: back := by
  obtain ⟨entries, sorted⟩ := m
  simp only [find?, values, insert] at h ⊢
  clear sorted
  induction entries with
  | nil => exact ⟨[], [], rfl, rfl⟩
  | cons e rest ih =>
    rw [insertEntry]
    split
    · exact ⟨[], _, rfl, rfl⟩
    · next same => simp [same] at h
    · next higher =>
      -- the first entry stays in front
      rw [List.find?_cons_of_neg (by simp [higher])] at h
      obtain ⟨front, back, hvalues, hinserted⟩ := ih h
      exact ⟨e.2 :: front, back, by rw [List.map_cons, hvalues]; rfl,
        by rw [List.map_cons, hinserted]; rfl⟩

/-- Inserting leaves all other keys alone. -/
theorem find?_insert_of_ne (m : SortedMap κ ν) {k k' : κ} (v : ν) (h : k' ≠ k) :
    (m.insert k v).find? k' = m.find? k' := by
  rw [find?_insert, if_neg fun heq => h (Std.LawfulEqCmp.eq_of_compare heq)]

end TableGroups.SortedMap
