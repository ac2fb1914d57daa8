import TableGroups.Value

/-!
# Key ranges

A key range bounds a scan at one or both ends.  A bound gives values for the leading columns of an
index, and both ends are meant in the order in which the index is stored: the low end is where a
forward scan starts.

`equalityPrefix` counts the leading columns that both ends pin to one value.  It is judged by
equality of fields, so a column bounded by NaN is never pinned.
-/

namespace TableGroups

/-- One end of a key range. -/
structure KeyBound where
  values : List Value
  inclusive : Bool
  deriving DecidableEq

/-- The range of keys that a scan covers. -/
structure KeyRange where
  low : Option KeyBound
  high : Option KeyBound
  deriving DecidableEq

namespace KeyRange

/-- All keys. -/
def unbounded : KeyRange := ⟨none, none⟩

/-- The keys whose leading columns have the given values. -/
def equal (values : List Value) : KeyRange :=
  ⟨some ⟨values, true⟩, some ⟨values, true⟩⟩

/-- The ends that exist, low before high. -/
def bounds (range : KeyRange) : List KeyBound :=
  range.low.toList ++ range.high.toList

/-- The largest number of columns that an end bounds. -/
def width (range : KeyRange) : Nat :=
  range.bounds.foldl (fun widest bound => max widest bound.values.length) 0

/-- The number of leading columns that both ends pin to one value. -/
def equalityPrefix (range : KeyRange) : Nat :=
  match range.low, range.high with
  | some low, some high =>
    if low.inclusive && high.inclusive then
      ((low.values.zip high.values).takeWhile fun (a, b) => a.agrees b).length
    else 0
  | _, _ => 0

end KeyRange

end TableGroups
