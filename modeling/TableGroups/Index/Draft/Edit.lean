import TableGroups.Index.Draft

/-!
# Edits of drafts

A `DraftEdit` is a step of writing an index definition as data, so that a whole definition can be
given as a list of edits.  Only the edits that add a column or check an id can fail.
-/

namespace TableGroups

/-- A step of writing an index definition. -/
inductive DraftEdit where
  /-- Add the column of a table with a name as a key column. -/
  | columnNamed (table : Table) (column : String) (position : Nat) (direction : Direction)
  /-- Add a key column. -/
  | column (column : IndexColumn)
  /-- Give the index an id. -/
  | id (id : Nat)
  /-- Read id and flags from a packed word. -/
  | packed (word : Nat)
  /-- Say whether the index is valid. -/
  | valid (valid : Bool)
  /-- Name the tree in which the index is kept. -/
  | treeName (treeName : String)
  /-- Close the column list. -/
  | freeze

namespace IndexDraft

/-- Make one edit. -/
def edit (draft : IndexDraft) : DraftEdit → Except IndexError IndexDraft
  | .columnNamed table column position direction =>
    draft.addColumnNamed table column position direction
  | .column column => draft.addColumn column
  | .id id => draft.assignId id
  | .packed word => draft.unpack word
  | .valid valid => .ok (draft.setValid valid)
  | .treeName treeName => .ok (draft.setTreeName treeName)
  | .freeze => .ok draft.freeze

/-- Make edits in order until one fails. -/
def editAll (draft : IndexDraft) (edits : List DraftEdit) : Except IndexError IndexDraft :=
  edits.foldlM edit draft

end IndexDraft

end TableGroups
