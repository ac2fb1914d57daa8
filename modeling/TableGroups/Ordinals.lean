import TableGroups.Group
import TableGroups.SortedMap

/-!
# Table ordinals

Hierarchical keys name tables by small numbers.  Within a group the tables are numbered from one in
depth-first order, so that a parent comes before its children and a subtree is an interval of
numbers.  An `Ordinals` holds the numbers of one generation of a schema.
-/

namespace TableGroups

/-- The numbers of the tables in one generation of a schema. -/
structure Ordinals where
  generation : Nat
  numbers : SortedMap TableName Nat

namespace Ordinals

/-- A generation in which no table has a number. -/
def none (generation : Nat) : Ordinals :=
  ⟨generation, .empty⟩

/-- Give a table a number, whatever it had before. -/
def assign (ordinals : Ordinals) (table : TableName) (number : Nat) : Ordinals :=
  { ordinals with numbers := ordinals.numbers.insert table number }

/-- Number the tables of a group from one, in depth-first order. -/
def number (ordinals : Ordinals) (group : Group) : Ordinals :=
  (group.depthFirst.zipIdx 1).foldl (fun acc (table, n) => acc.assign table.name n) ordinals

/-- The numbers of the tables of several groups; each group starts from one, and later groups
override earlier ones. -/
def ofGroups (groups : List Group) (generation : Nat) : Ordinals :=
  groups.foldl number (none generation)

/-- The number of a table. -/
def ordinal? (ordinals : Ordinals) (table : TableName) : Option Nat :=
  ordinals.numbers.find? table

/-- How many tables have a number. -/
def size (ordinals : Ordinals) : Nat :=
  ordinals.numbers.size

end Ordinals

end TableGroups
