/-!
# Names

Tables are named inside a schema and indexes inside their table.  Names are ordered by their parts,
outermost first, each part by code points; every listing in name order means this order.
-/

namespace TableGroups

/-- The name of a table. -/
structure TableName where
  schema : String
  table : String
  deriving DecidableEq

namespace TableName

/-- The name with a point between its parts. -/
def display (name : TableName) : String :=
  name.schema ++ "." ++ name.table

instance : Ord TableName :=
  ⟨compareLex (compareOn TableName.schema) (compareOn TableName.table)⟩

instance : Std.TransOrd TableName :=
  inferInstanceAs
    (Std.TransCmp (compareLex (compareOn TableName.schema) (compareOn TableName.table)))

instance : Std.LawfulEqOrd TableName where
  eq_of_compare {a b} h := by
    obtain ⟨first, second⟩ := compareLex_eq_eq.mp h
    cases a
    cases b
    simp only [mk.injEq]
    exact ⟨Std.LawfulEqCmp.eq_of_compare first, Std.LawfulEqCmp.eq_of_compare second⟩

end TableName

/-- The name of an index: its leaf table's name and its own. -/
structure IndexName where
  table : TableName
  name : String
  deriving DecidableEq

namespace IndexName

/-- The name with a point between its parts. -/
def display (index : IndexName) : String :=
  index.table.display ++ "." ++ index.name

instance : Ord IndexName :=
  ⟨compareLex (compareOn IndexName.table) (compareOn IndexName.name)⟩

instance : Std.TransOrd IndexName :=
  inferInstanceAs
    (Std.TransCmp (compareLex (compareOn IndexName.table) (compareOn IndexName.name)))

instance : Std.LawfulEqOrd IndexName where
  eq_of_compare {a b} h := by
    obtain ⟨first, second⟩ := compareLex_eq_eq.mp h
    cases a
    cases b
    simp only [mk.injEq]
    exact ⟨Std.LawfulEqCmp.eq_of_compare first, Std.LawfulEqCmp.eq_of_compare second⟩

end IndexName

end TableGroups
