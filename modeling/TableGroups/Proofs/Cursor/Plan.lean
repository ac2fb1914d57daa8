import TableGroups.Cursor.Tree
import TableGroups.Proofs.Cursor.Reversal
import TableGroups.Proofs.ListM

/-!
# Plans read backwards

A `JoinPlan` is a tree of intersections over given rows, as it is asked for.  If the inputs of every
node are sorted as the node compares them, then turning all directions round and reversing the rows
of all leaves reverses the rows of the plan (`JoinPlan.collect_reversed`).

What a sorted plan streams is told by a function of its leaves alone (`JoinPlan.output`).  Both
plans stream their outputs (`streams_of_sorted`), and the one output is the other one reversed
(`output_reversed`), which goes from the leaves to the root by what is known of one merge.
-/

namespace TableGroups

/-! ### Nodes -/

/-- What a node of a plan asks for besides its inputs. -/
structure JoinNode where
  leftType : RowType
  /-- The number of trailing fields that the left input is ordered on. -/
  leftFields : Nat
  rightType : RowType
  rightFields : Nat
  /-- How many of these fields are compared. -/
  fields : Nat
  directions : List Direction
  join : JoinType
  output : Side

namespace JoinNode

/-- The intersection that the node asks for. -/
def request {L R : Type} (node : JoinNode) (left : L) (right : R) : IntersectionRequest L R :=
  ⟨some ⟨left, node.leftType, node.leftFields⟩, some ⟨right, node.rightType, node.rightFields⟩,
    node.fields, node.directions, some (node.join, node.output)⟩

/-- What the node does with the rows of its inputs. -/
def rule (node : JoinNode) : MergeRule :=
  ⟨⟨node.directions⟩, node.leftType.fields.length - node.leftFields,
    node.rightType.fields.length - node.rightFields, node.join, node.output⟩

/-- The rows of the left input that count. -/
def leftRows (node : JoinNode) (rows : List Row) : List Row :=
  rows.filter (·.isOfType node.leftType)

/-- The rows of the right input that count. -/
def rightRows (node : JoinNode) (rows : List Row) : List Row :=
  rows.filter (·.isOfType node.rightType)

/-- The rows of both inputs ascend as the node compares them, and each of the left ones can be
compared with each of the right ones. -/
structure Sorted (node : JoinNode) (ls rs : List Row) : Prop where
  left : node.rule.comparator.Ascending node.rule.leftOffset (node.leftRows ls)
  right : node.rule.comparator.Ascending node.rule.rightOffset (node.rightRows rs)
  comparable : node.rule.Comparable (node.leftRows ls) (node.rightRows rs)

/-- What the node emits of sorted inputs. -/
def emits (node : JoinNode) (ls rs : List Row) : List Row :=
  node.rule.joined (node.leftRows ls) (node.rightRows rs)

/-- The node with every direction turned round. -/
def reversed (node : JoinNode) : JoinNode :=
  { node with directions := node.directions.map Direction.reverse }

variable {node : JoinNode} {ls rs : List Row}

theorem Sorted.reversed (h : node.Sorted ls rs) : node.reversed.Sorted ls.reverse rs.reverse := by
  obtain ⟨hleft, hright, hcomparable⟩ := h
  refine ⟨?_, ?_, ?_⟩ <;> simp only [leftRows, rightRows, List.filter_reverse]
  · exact hleft.reversed
  · exact hright.reversed
  · exact hcomparable.reversed

theorem emits_reversed (node : JoinNode) (ls rs : List Row) :
    node.reversed.emits ls.reverse rs.reverse = (node.emits ls rs).reverse := by
  simp only [emits, leftRows, rightRows, List.filter_reverse]
  exact node.rule.joined_reversed _ _

section

variable {L R : Type} {left : L} {right : R} {m : Intersection L R}

/-- Directions do not decide whether a node is accepted. -/
theorem exists_build_reversed {L' R' : Type} (left' : L') (right' : R')
    (h : (node.request left right).build = .ok m) :
    ∃ m', (node.reversed.request left' right').build = .ok m' := by
  obtain ⟨hleft, hright, hcount, hfields, hfull, hsupports, -⟩ :=
    IntersectionRequest.build_eq_ok_iff.mp h
  have hcount' : node.reversed.directions.length = node.fields :=
    (List.length_map _).trans hcount
  exact ⟨_, IntersectionRequest.build_eq_ok_iff.mpr
    ⟨hleft, hright, hcount', hfields, hfull, hsupports, rfl⟩⟩

/-- What an accepted node streams of sorted inputs. -/
theorem streams [Cursor L] [Cursor R] {stores : Stores} {context : QueryContext}
    (hbuild : (node.request left right).build = .ok m) (hgo : context.interruption? = none)
    (hleft : Cursor.Streams stores context left ls none)
    (hright : Cursor.Streams stores context right rs none) (hsorted : node.Sorted ls rs) :
    Cursor.Streams stores context m (node.emits ls rs) none := by
  obtain ⟨-, -, -, -, hfull, hsupports, -⟩ := IntersectionRequest.build_eq_ok_iff.mp hbuild
  obtain ⟨hls, hrs, hcomparable⟩ := hsorted
  exact IntersectionRequest.streams_of_ascending hbuild hgo hleft hright hls hrs
    (MergeRule.merge_of_ascending hfull hsupports hls hrs hcomparable)

end

end JoinNode

/-! ### Plans -/

/-- A tree of intersections over given rows. -/
inductive JoinPlan where
  | leaf (rowType : RowType) (rows : List Row)
  | join (node : JoinNode) (left right : JoinPlan)

namespace JoinPlan

/-- The shape of the plan's cursor. -/
def shape : JoinPlan → CursorShape
  | .leaf _ _ => .rows
  | .join _ left right => .intersection left.shape right.shape

/-- The cursor of the plan, if all of its intersections are accepted. -/
def build : (plan : JoinPlan) → Except IntersectionError plan.shape.Carrier
  | .leaf rowType rows => .ok (RowsCursor.ofRows rowType rows)
  | .join node left right => do (node.request (← left.build) (← right.build)).build

/-- The plan with all directions turned round and the rows of all leaves in reverse order. -/
def reversed : JoinPlan → JoinPlan
  | .leaf rowType rows => .leaf rowType rows.reverse
  | .join node left right => .join node.reversed left.reversed right.reversed

/-- Collecting the rows of the plan gives these. -/
def Collects (stores : Stores) (context : QueryContext) (plan : JoinPlan) (rows : List Row) :
    Prop :=
  ∃ c, plan.build = .ok c ∧ (Cursor.collect stores context c).result = .ok rows

/-- At every node, what its inputs give is sorted as the node compares it. -/
def Orderly (stores : Stores) (context : QueryContext) : JoinPlan → Prop
  | .leaf _ _ => True
  | .join node left right =>
    left.Orderly stores context ∧ right.Orderly stores context ∧
      ∀ ls rs, left.Collects stores context ls → right.Collects stores context rs →
        node.Sorted ls rs

/-! ### Outputs -/

/-- What a sorted plan emits. -/
def output : JoinPlan → List Row
  | .leaf _ rows => rows
  | .join node left right => node.emits left.output right.output

/-- The inputs of every node emit sorted rows. -/
def Sorted : JoinPlan → Prop
  | .leaf _ _ => True
  | .join node left right =>
    left.Sorted ∧ right.Sorted ∧ node.Sorted left.output right.output

/-- The plan read backwards emits the same rows in reverse order. -/
theorem output_reversed (plan : JoinPlan) : plan.reversed.output = plan.output.reverse := by
  induction plan with
  | leaf rowType rows => rfl
  | join node left right ihLeft ihRight =>
    show node.reversed.emits left.reversed.output right.reversed.output = _
    rw [ihLeft, ihRight, JoinNode.emits_reversed]
    rfl

theorem Sorted.reversed {plan : JoinPlan} (h : plan.Sorted) : plan.reversed.Sorted := by
  induction plan with
  | leaf rowType rows => trivial
  | join node left right ihLeft ihRight =>
    obtain ⟨hleft, hright, hnode⟩ := h
    refine ⟨ihLeft hleft, ihRight hright, ?_⟩
    rw [output_reversed, output_reversed]
    exact hnode.reversed

/-! ### Running plans -/

theorem build_join_eq_ok_iff {node : JoinNode} {left right : JoinPlan}
    {m : (join node left right).shape.Carrier} :
    (join node left right).build = .ok m ↔
      ∃ l r, left.build = .ok l ∧ right.build = .ok r ∧ (node.request l r).build = .ok m := by
  refine bind_eq_ok_iff.trans (exists_congr fun l => ?_)
  exact (and_congr_right fun _ => bind_eq_ok_iff).trans exists_and_left.symm

/-- A plan is accepted whichever way it is read. -/
theorem exists_build_reversed {plan : JoinPlan} {c : plan.shape.Carrier}
    (h : plan.build = .ok c) : ∃ c', plan.reversed.build = .ok c' := by
  induction plan with
  | leaf rowType rows => exact ⟨_, rfl⟩
  | join node left right ihLeft ihRight =>
    obtain ⟨l, r, hleft, hright, hnode⟩ := build_join_eq_ok_iff.mp h
    obtain ⟨l', hleft'⟩ := ihLeft hleft
    obtain ⟨r', hright'⟩ := ihRight hright
    obtain ⟨m', hnode'⟩ := JoinNode.exists_build_reversed l' r' hnode
    exact ⟨m', build_join_eq_ok_iff.mpr ⟨l', r', hleft', hright', hnode'⟩⟩

variable {stores : Stores} {context : QueryContext} {plan : JoinPlan} {c : plan.shape.Carrier}

/-- A sorted plan streams its output. -/
theorem streams_of_sorted (hbuild : plan.build = .ok c) (hgo : context.interruption? = none)
    (hsorted : plan.Sorted) : Cursor.Streams stores context c plan.output none := by
  induction plan with
  | leaf rowType rows =>
    cases hbuild
    exact RowsCursor.streams stores rfl hgo
  | join node left right ihLeft ihRight =>
    obtain ⟨l, r, hleft, hright, hnode⟩ := build_join_eq_ok_iff.mp hbuild
    obtain ⟨hsortedLeft, hsortedRight, hinputs⟩ := hsorted
    have hl := ihLeft hleft hsortedLeft
    have hr := ihRight hright hsortedRight
    exact JoinNode.streams hnode hgo hl hr hinputs

/-- A sorted plan gives its output and nothing else. -/
theorem collects_iff_of_sorted (hbuild : plan.build = .ok c) (hgo : context.interruption? = none)
    (hsorted : plan.Sorted) {rows : List Row} :
    plan.Collects stores context rows ↔ rows = plan.output := by
  have hstreams : Cursor.Streams stores context c plan.output none :=
    streams_of_sorted hbuild hgo hsorted
  constructor
  · rintro ⟨c', hbuild', hrows⟩
    rw [hbuild] at hbuild'
    cases hbuild'
    rw [hstreams.collect] at hrows
    cases hrows
    rfl
  · rintro rfl
    exact ⟨c, hbuild, hstreams.collect⟩

/-- What the inputs of the nodes give is sorted if their outputs are. -/
theorem orderly_iff_sorted (hbuild : plan.build = .ok c) (hgo : context.interruption? = none) :
    plan.Orderly stores context ↔ plan.Sorted := by
  induction plan with
  | leaf rowType rows => exact Iff.rfl
  | join node left right ihLeft ihRight =>
    obtain ⟨l, r, hleft, hright, -⟩ := build_join_eq_ok_iff.mp hbuild
    show (left.Orderly stores context ∧ right.Orderly stores context ∧ _) ↔
      (left.Sorted ∧ right.Sorted ∧ _)
    rw [ihLeft hleft, ihRight hright]
    refine and_congr_right fun hsortedLeft => and_congr_right fun hsortedRight => ?_
    simp only [collects_iff_of_sorted hleft hgo hsortedLeft,
      collects_iff_of_sorted hright hgo hsortedRight]
    exact ⟨fun h => h _ _ rfl rfl, by rintro h _ _ rfl rfl; exact h⟩

/-- **A plan read backwards gives its rows backwards.**  Take a plan of accepted intersections,
inner or outer, of any widths and nested to any depth, whose inputs are at every node sorted and
comparable as the node compares them, and a context that nothing stops.  Its rows are collected
without failure.  The plan with the rows of all leaves in reverse order and all directions turned
round is accepted too, and gives exactly these rows in reverse order. -/
theorem collect_reversed (hbuild : plan.build = .ok c) (hgo : context.interruption? = none)
    (horderly : plan.Orderly stores context) :
    ∃ rows, (Cursor.collect stores context c).result = .ok rows ∧
      ∃ reversed, plan.reversed.build = .ok reversed ∧
        (Cursor.collect stores context reversed).result = .ok rows.reverse := by
  have hsorted := (orderly_iff_sorted hbuild hgo).mp horderly
  obtain ⟨reversed, hreversed⟩ := exists_build_reversed hbuild
  refine ⟨plan.output, (streams_of_sorted hbuild hgo hsorted).collect, reversed, hreversed, ?_⟩
  rw [← output_reversed]
  exact (streams_of_sorted hreversed hgo hsorted.reversed).collect

/-- Orders by customer and, of each customer, from dear to cheap. -/
def orders : RowType := .derived "order" [.int, .int]

/-- Customers by number. -/
def customers : RowType := .derived "customer" [.int]

/-- Of some orders those at a wanted price, beside the customers that there are.  Two orders are
alike, one has no customer, and customers need not have an order. -/
def wantedOrders : JoinPlan :=
  .join ⟨orders, 2, customers, 1, 1, [.asc], .left, .left⟩
    (.join ⟨orders, 2, orders, 2, 2, [.asc, .desc], .inner, .left⟩
      (.leaf orders
        [⟨orders, [.null, .int 3]⟩, ⟨orders, [.int 1, .int 7]⟩, ⟨orders, [.int 1, .int 7]⟩,
          ⟨orders, [.int 1, .int 2]⟩, ⟨orders, [.int 2, .int 5]⟩])
      (.leaf orders
        [⟨orders, [.null, .int 3]⟩, ⟨orders, [.int 1, .int 7]⟩, ⟨orders, [.int 2, .int 9]⟩,
          ⟨orders, [.int 2, .int 5]⟩]))
    (.leaf customers [⟨customers, [.int 1]⟩, ⟨customers, [.int 3]⟩])

/-- Four of the orders are collected, and backwards they come backwards. -/
theorem collect_reversed_wantedOrders :
    ∃ c, wantedOrders.build = .ok c ∧ wantedOrders.Orderly (fun _ => .empty) .standard ∧
      ∃ rows, (Cursor.collect (fun _ => .empty) .standard c).result = .ok rows ∧
        rows = [⟨orders, [.null, .int 3]⟩, ⟨orders, [.int 1, .int 7]⟩,
          ⟨orders, [.int 1, .int 7]⟩, ⟨orders, [.int 2, .int 5]⟩] ∧
        ∃ reversed, wantedOrders.reversed.build = .ok reversed ∧
          (Cursor.collect (fun _ => .empty) .standard reversed).result = .ok rows.reverse := by
  have hsorted : wantedOrders.Sorted :=
    ⟨⟨trivial, trivial, by decide, by decide, by decide⟩, trivial, by decide, by decide, by decide⟩
  obtain ⟨c, hbuild⟩ : ∃ c, wantedOrders.build = .ok c := ⟨_, rfl⟩
  have horderly : wantedOrders.Orderly (fun _ => .empty) .standard :=
    (orderly_iff_sorted hbuild rfl).mpr hsorted
  obtain ⟨rows, hrows, hreversed⟩ := collect_reversed hbuild rfl horderly
  have houtput := (collects_iff_of_sorted hbuild rfl hsorted).mp ⟨c, hbuild, hrows⟩
  exact ⟨c, hbuild, horderly, rows, hrows, houtput.trans (by decide), hreversed⟩

end JoinPlan

end TableGroups
