import TableGroups.Value.Order
import TableGroups.Value.Text

/-!
# Hierarchical keys

A hierarchical key, or hkey, identifies a row of a grouped table by the primary keys of its
ancestors and itself: one segment per table of the lineage, tagged with the table's ordinal.

Keys are ordered lexicographically, segment by segment and inside a segment by ordinal and then by
values.  A key lies directly before the keys that extend it, so the rows of a group in hkey order
are the tree of the group in pre-order.
-/

namespace TableGroups

/-- The part of a hierarchical key that belongs to one table. -/
structure HKeySegment where
  ordinal : Nat
  values : List Value
  deriving DecidableEq

namespace HKeySegment

/-- Order of segments: by ordinal, then by values, a shorter run of values before its
extensions. -/
def order (a b : HKeySegment) : Ordering :=
  (compare a.ordinal b.ordinal).then (List.compareLex Value.canonicalCompare a.values b.values)

/-- Equality of segments, their values compared as fields are. -/
def agrees (a b : HKeySegment) : Bool :=
  a.ordinal == b.ordinal && Value.allAgree a.values b.values

/-- The segment in braces, the ordinal first. -/
def display (segment : HKeySegment) : String :=
  "\x7b" ++ ",".intercalate (toString segment.ordinal :: segment.values.map Value.display) ++ "\x7d"

end HKeySegment

/-- A hierarchical key. -/
structure HKey where
  segments : List HKeySegment
  deriving DecidableEq

namespace HKey

/-- Order of keys: segment by segment, a key before its extensions. -/
def order (a b : HKey) : Ordering :=
  List.compareLex HKeySegment.order a.segments b.segments

/-- Equality of keys, their values compared as fields are. -/
def agrees (a b : HKey) : Bool :=
  List.isEqv a.segments b.segments HKeySegment.agrees

/-- Whether the other key extends this one: it is longer, and this one's segments are its first
ones. -/
def isAncestorOf (a b : HKey) : Bool :=
  decide (a.segments.length < b.segments.length) &&
    (a.segments.zip b.segments).all fun (s, t) => s.agrees t

/-- The segments, separated by commas. -/
def display (key : HKey) : String :=
  ",".intercalate (key.segments.map HKeySegment.display)

end HKey

end TableGroups
