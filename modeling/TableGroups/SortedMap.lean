/-!
# Maps in key order

A `SortedMap` holds one value per key, its entries in increasing order of the keys.  The order is
part of what the map says: schemas list their indexes, stores visit theirs and reports list their
counters in it.

The invariant is a field of the type, so every map has distinct keys.  A map is seen through
`find?`, and each operation has one equation for it: `find?_empty`, `find?_insert` and
`find?_erase`.
-/

namespace TableGroups

universe u v

/-- A map with its entries in strictly increasing order of their keys. -/
structure SortedMap (κ : Type u) (ν : Type v) [Ord κ] where
  entries : List (κ × ν)
  sorted : entries.Pairwise fun a b => compare a.1 b.1 = .lt

namespace SortedMap

variable {κ : Type u} {ν : Type v} [Ord κ]

/-- The map without entries. -/
def empty : SortedMap κ ν := ⟨[], .nil⟩

instance : Inhabited (SortedMap κ ν) := ⟨empty⟩

/-- The value of a key. -/
def find? (m : SortedMap κ ν) (k : κ) : Option ν :=
  (m.entries.find? fun e => compare k e.1 == .eq).map Prod.snd

@[simp] theorem find?_empty (k : κ) : (empty : SortedMap κ ν).find? k = none := rfl

/-- Whether the map has a value for a key. -/
def contains (m : SortedMap κ ν) (k : κ) : Bool :=
  (m.find? k).isSome

/-- The keys, in increasing order. -/
def keys (m : SortedMap κ ν) : List κ :=
  m.entries.map Prod.fst

/-- The values, in increasing order of their keys. -/
def values (m : SortedMap κ ν) : List ν :=
  m.entries.map Prod.snd

/-- The number of entries. -/
def size (m : SortedMap κ ν) : Nat :=
  m.entries.length

/-- The map with only the entries that pass a test. -/
def filter (m : SortedMap κ ν) (p : κ → ν → Bool) : SortedMap κ ν :=
  ⟨m.entries.filter fun e => p e.1 e.2, m.sorted.filter _⟩

/-- The map without a key. -/
def erase (m : SortedMap κ ν) (k : κ) : SortedMap κ ν :=
  m.filter fun other _ => compare k other != .eq

/-- Put an entry into its place among ordered entries, replacing the one with its key. -/
def insertEntry (k : κ) (v : ν) : List (κ × ν) → List (κ × ν)
  | [] => [(k, v)]
  | e :: rest =>
    match compare k e.1 with
    | .lt => (k, v) :: e :: rest
    | .eq => (k, v) :: rest
    | .gt => e :: insertEntry k v rest

theorem mem_insertEntry {k : κ} {v : ν} {x : κ × ν} {entries : List (κ × ν)}
    (h : x ∈ insertEntry k v entries) : x = (k, v) ∨ x ∈ entries := by
  induction entries with
  | nil => simpa [insertEntry] using h
  | cons e rest ih =>
    rw [insertEntry] at h
    split at h <;> simp only [List.mem_cons] at h ⊢ <;> grind

variable [Std.TransOrd κ] [Std.LawfulEqOrd κ]

theorem insertEntry_sorted (k : κ) (v : ν) {entries : List (κ × ν)}
    (h : entries.Pairwise fun a b => compare a.1 b.1 = .lt) :
    (insertEntry k v entries).Pairwise fun a b => compare a.1 b.1 = .lt := by
  induction entries with
  | nil => simp [insertEntry]
  | cons e rest ih =>
    obtain ⟨first, others⟩ := List.pairwise_cons.mp h
    rw [insertEntry]
    split
    · next lower =>
      -- the new entry comes before all others
      refine List.pairwise_cons.mpr ⟨fun x hx => ?_, h⟩
      rcases List.mem_cons.mp hx with rfl | hx
      · exact lower
      · exact Std.TransCmp.lt_trans lower (first x hx)
    · next same =>
      -- the new entry takes the place of the one with its key
      have : k = e.1 := Std.LawfulEqCmp.eq_of_compare same
      exact List.pairwise_cons.mpr ⟨fun x hx => this ▸ first x hx, others⟩
    · next higher =>
      -- the first entry stays in front
      refine List.pairwise_cons.mpr ⟨fun x hx => ?_, ih others⟩
      rcases mem_insertEntry hx with rfl | hx
      · exact Std.OrientedCmp.lt_of_gt higher
      · exact first x hx

/-- The map with `v` as the value of `k`, whatever it was before. -/
def insert (m : SortedMap κ ν) (k : κ) (v : ν) : SortedMap κ ν :=
  ⟨insertEntry k v m.entries, insertEntry_sorted k v m.sorted⟩

/-- Inserting changes the value of the inserted key and of no other. -/
theorem find?_insert (m : SortedMap κ ν) (k k' : κ) (v : ν) :
    (m.insert k v).find? k' = if compare k' k = .eq then some v else m.find? k' := by
  obtain ⟨entries, sorted⟩ := m
  simp only [find?, insert]
  clear sorted
  induction entries with
  | nil => by_cases h : compare k' k = .eq <;> simp [insertEntry, h]
  | cons e rest ih =>
    rw [insertEntry]
    split
    · by_cases h : compare k' k = .eq <;> simp [h]
    · next same =>
      have : k = e.1 := Std.LawfulEqCmp.eq_of_compare same
      by_cases h : compare k' k = .eq <;> simp_all
    · next higher =>
      -- the first entry stays in front, so it decides for its own key and for no other
      by_cases h' : compare k' e.1 = .eq
      · have same : k' = e.1 := Std.LawfulEqCmp.eq_of_compare h'
        have : compare k' k ≠ .eq := by
          rw [same, Std.OrientedCmp.lt_of_gt higher]
          simp
        simp [h', this]
      · have drop : (compare k' e.1 == Ordering.eq) = false := by simp [h']
        simp only [List.find?_cons, drop]
        exact ih

/-- Erasing takes the value of the erased key away and of no other. -/
theorem find?_erase (m : SortedMap κ ν) (k k' : κ) :
    (m.erase k).find? k' = if compare k k' = .eq then none else m.find? k' := by
  obtain ⟨entries, sorted⟩ := m
  simp only [find?, erase, filter]
  clear sorted
  induction entries with
  | nil => simp
  | cons e rest ih =>
    by_cases hk : compare k e.1 = .eq
    -- the first entry goes
    · have : k = e.1 := Std.LawfulEqCmp.eq_of_compare hk
      by_cases h : compare k k' = .eq
      · simp_all
      · have : (compare k' e.1 == Ordering.eq) = false := by
          have : compare k' k ≠ .eq := fun back => h (Std.OrientedCmp.eq_symm back)
          simp_all
        simp_all
    -- the first entry stays
    · have keep : (compare k e.1 != Ordering.eq) = true := by simp [hk]
      rw [List.filter_cons, if_pos keep]
      by_cases h' : compare k' e.1 = .eq
      · have : k' = e.1 := Std.LawfulEqCmp.eq_of_compare h'
        have : compare k k' ≠ .eq := by rw [this]; exact hk
        simp [h', this]
      · simp only [List.find?_cons, show (compare k' e.1 == Ordering.eq) = false by simp [h']]
        exact ih

end SortedMap

end TableGroups
