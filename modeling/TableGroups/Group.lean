import TableGroups.Schema.Error
import TableGroups.Table

/-!
# Table groups

A group is a root table and the tables that hang from it, directly or through others.  A table
joins a group only if its parent is a member, so the lineage of every member lies in the group.

The tree itself is not stored: the children of a table are the members whose parent has its name.
`depthFirst` lists the tree in pre-order, siblings by name; ordinals are handed out in this order.
-/

namespace TableGroups

/-- A root table and the members added to it, in the order in which they came. -/
structure Group where
  name : String
  root : Table
  added : List Table
  deriving DecidableEq

namespace Group

/-- The group that consists of a root table alone. -/
def start (name : String) (root : Table) : Except SchemaError Group :=
  match root.parent? with
  | some _ => .error (.rootHasParent root.name)
  | none => .ok ⟨name, root, []⟩

/-- All members, the root first. -/
def tables (group : Group) : List Table :=
  group.root :: group.added

/-- The member with a name. -/
def table? (group : Group) (name : TableName) : Option Table :=
  group.tables.find? (·.name == name)

/-- Whether a table of this name is a member. -/
def contains (group : Group) (name : TableName) : Bool :=
  (group.table? name).isSome

/-- Whether the parent of a table, as the table knows it, is a member. -/
def hasParentOf (group : Group) (table : Table) : Bool :=
  match table.parent? with
  | none => false
  | some parent => group.table? parent.name == some parent

/-- The group with one more member; its name must be new and its parent a member. -/
def addTable (group : Group) (table : Table) : Except SchemaError Group :=
  if group.contains table.name then .error (.duplicateTable table.name)
  else if group.hasParentOf table then .ok { group with added := group.added ++ [table] }
  else .error (.orphanTable table.name)

/-- The members whose parent has this name, by name. -/
def children (group : Group) (parent : TableName) : List Table :=
  (group.tables.filter fun table => (table.parent?.map (·.name)) == some parent).mergeSort
    fun a b => compare a.name b.name != .gt

/-- A table and the tables below it in pre-order, down to `levels` levels. -/
def subtree (group : Group) : Nat → Table → List Table
  | 0, _ => []
  | levels + 1, table => table :: (group.children table.name).flatMap (group.subtree levels)

/-- All tables of the tree in pre-order.  No branch has more levels than the group has tables. -/
def depthFirst (group : Group) : List Table :=
  group.subtree group.tables.length group.root

end Group

end TableGroups
