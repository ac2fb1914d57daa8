import TableGroups.HKey.Recipe
import TableGroups.Index.Composition

/-!
# Field associations

All that follows from an index under the ordinals of one generation: its columns, what its rows are
made of, and how they become hierarchical keys.
-/

namespace TableGroups

/-- What follows from an index under the ordinals of one generation. -/
structure Association where
  generation : Nat
  columns : List IndexColumn
  composition : Composition
  recipe : HKeyRecipe
  deriving DecidableEq

/-- The association of an index; every table of its leaf's lineage must have an ordinal. -/
def Association.compute (index : Index) (ordinals : Ordinals) : Except IndexError Association := do
  let recipe ← HKeyRecipe.ofIndex index ordinals
  return ⟨ordinals.generation, index.allColumns, .ofIndex index, recipe⟩

end TableGroups
