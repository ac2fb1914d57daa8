import TableGroups.Association

/-!
# Caching associations

An association is kept under the name of its index and the generation it was computed for.  What is
kept under a generation is never served for another; `retain` drops the generations that are over.
-/

namespace TableGroups

/-- What an association is kept under. -/
structure CacheKey where
  index : IndexName
  generation : Nat
  deriving DecidableEq

namespace CacheKey

instance : Ord CacheKey :=
  ⟨compareLex (compareOn CacheKey.index) (compareOn CacheKey.generation)⟩

instance : Std.TransOrd CacheKey :=
  inferInstanceAs
    (Std.TransCmp (compareLex (compareOn CacheKey.index) (compareOn CacheKey.generation)))

instance : Std.LawfulEqOrd CacheKey where
  eq_of_compare {a b} h := by
    obtain ⟨first, second⟩ := compareLex_eq_eq.mp h
    cases a
    cases b
    simp only [mk.injEq]
    exact ⟨Std.LawfulEqCmp.eq_of_compare first, Std.LawfulEqCmp.eq_of_compare second⟩

end CacheKey

/-- Associations kept for reuse, and how often they were asked for. -/
structure AssociationCache where
  entries : SortedMap CacheKey Association
  hits : Nat
  misses : Nat

/-- What a cache tells about itself. -/
structure CacheStats where
  hits : Nat
  misses : Nat
  size : Nat
  deriving DecidableEq

namespace AssociationCache

/-- A cache without entries. -/
def empty : AssociationCache := ⟨.empty, 0, 0⟩

/-- The association of an index, and the cache afterwards.  It is computed only if none is kept for
the index's name and the generation; an index that has no association is not counted. -/
def get (cache : AssociationCache) (index : Index) (ordinals : Ordinals) :
    Except IndexError Association × AssociationCache :=
  let key : CacheKey := ⟨index.name, ordinals.generation⟩
  match cache.entries.find? key with
  | some found => (.ok found, { cache with hits := cache.hits + 1 })
  | none =>
    match Association.compute index ordinals with
    | .error e => (.error e, cache)
    | .ok computed =>
      (.ok computed,
        { cache with
          entries := cache.entries.insert key computed
          misses := cache.misses + 1 })

/-- Drop what was computed for any other generation. -/
def retain (cache : AssociationCache) (generation : Nat) : AssociationCache :=
  { cache with entries := cache.entries.filter fun key _ => key.generation == generation }

/-- How often the cache was asked with and without success, and how much it keeps. -/
def stats (cache : AssociationCache) : CacheStats :=
  ⟨cache.hits, cache.misses, cache.entries.size⟩

end AssociationCache

end TableGroups
