import TableGroups.Value.Order
import TableGroups.Value.Text
import TableGroups.SortedMap
import TableGroups.Table.Declaration
import TableGroups.Group
import TableGroups.Index.Draft.Edit
import TableGroups.Association.Cache
import TableGroups.Schema.Catalog
import TableGroups.Store
import TableGroups.Row
import TableGroups.RowOrdering
import TableGroups.KeyRange
import TableGroups.QueryContext
import TableGroups.Cursor.Rows
import TableGroups.Cursor.Scan
import TableGroups.Cursor.Intersection
import TableGroups.Cursor.Intersection.Request
import TableGroups.Cursor.Tree
import TableGroups.Json.Metadata
import TableGroups.Proofs.Value.Order
import TableGroups.Proofs.Value.RowOrder
import TableGroups.Proofs.Value.Places
import TableGroups.Proofs.Value.Agreement
import TableGroups.Proofs.SortedMap
import TableGroups.Proofs.ListM
import TableGroups.Proofs.KeyComparator
import TableGroups.Proofs.Table.Lineage
import TableGroups.Proofs.Table.Linkage
import TableGroups.Proofs.Index.Build
import TableGroups.Proofs.Index.Draft
import TableGroups.Proofs.Index.Freezing
import TableGroups.Proofs.Index.Packing
import TableGroups.Proofs.Index.OverTable
import TableGroups.Proofs.HKey.Recipe
import TableGroups.Proofs.HKey.Order
import TableGroups.Proofs.HKey.Ancestry
import TableGroups.Proofs.HKey.Total
import TableGroups.Proofs.Index.Composition
import TableGroups.Proofs.Store.Search
import TableGroups.Proofs.Store.Run
import TableGroups.Proofs.Store.Bounds
import TableGroups.Proofs.Store.Insert
import TableGroups.Proofs.Store.Maintain
import TableGroups.Proofs.Store.Contents
import TableGroups.Proofs.Store.Fit
import TableGroups.Proofs.Store.KeyOrder
import TableGroups.Proofs.Cursor.Delivery
import TableGroups.Proofs.Cursor.Session
import TableGroups.Proofs.Cursor.Scan
import TableGroups.Proofs.Cursor.Equality
import TableGroups.Proofs.Cursor.Ordering
import TableGroups.Proofs.Cursor.Pinned
import TableGroups.Proofs.Cursor.Conformance
import TableGroups.Proofs.Cursor.Supply
import TableGroups.Proofs.Cursor.Merge
import TableGroups.Proofs.Cursor.Semijoin
import TableGroups.Proofs.Cursor.Progress
import TableGroups.Proofs.Cursor.Invariant
import TableGroups.Proofs.Cursor.OuterJoin
import TableGroups.Proofs.Cursor.Soundness
import TableGroups.Proofs.Cursor.KeyScan
import TableGroups.Proofs.ParentChild
import TableGroups.Proofs.Cursor.Protocol
import TableGroups.Proofs.Cursor.Unison
import TableGroups.Proofs.Cursor.Replay
import TableGroups.Proofs.Schema.Change
import TableGroups.Proofs.Association
import TableGroups.Proofs.Index.Completion
import TableGroups.Proofs.Ordinals
import TableGroups.Proofs.Schema.Ordinals
import TableGroups.Proofs.Schema.Lookup
import TableGroups.Proofs.Schema.Catalog
import TableGroups.Proofs.Schema.Redefinition
import TableGroups.Proofs.Group
import TableGroups.Proofs.Group.Listing
import TableGroups.Proofs.Group.Numbering
import TableGroups.Proofs.Schema.Consistency
import TableGroups.Proofs.Schema.History
import TableGroups.Proofs.Schema.Reachable
import TableGroups.Proofs.Metrics
import TableGroups.Proofs.Cursor.Simulation
import TableGroups.Proofs.Cursor.Mirror
import TableGroups.Proofs.Cursor.Metered
import TableGroups.Proofs.Cursor.Accounts
import TableGroups.Proofs.Cursor.Balance
import TableGroups.Proofs.Cursor.Flags
import TableGroups.Proofs.Cursor.Exchange
import TableGroups.Proofs.Cursor.Logged
import TableGroups.Proofs.Cursor.Failures
import TableGroups.Proofs.Cursor.Pulls
import TableGroups.Proofs.Cursor.Conservation
import TableGroups.Proofs.Cursor.Reversal
import TableGroups.Proofs.Cursor.Plan
