import Mathlib.Data.List.Chain
import TableGroups.Cursor.Rows
import TableGroups.Proofs.Cursor.Merge

/-!
# An inner intersection is a semijoin

An inner intersection of ascending inputs emits the rows of its output side that have a partner on
the other side, each once and in order, however many rows share a key
(`IntersectionRequest.collect_inner`).  The reason is in `merge_inner`: a row that is dropped comes
before the row in hand of the other side, so before all rows that are still to come there
(`compareRuns_lt_of_lt_of_notAfter`), and a row that is emitted leaves its partner in hand for the
next row of the same key.
-/

namespace TableGroups

/-- Whether two keys compare equal. -/
def KeyComparator.agree (comparator : KeyComparator) (l : List Value) (i : Nat) (r : List Value)
    (j : Nat) : Bool :=
  match comparator.compareRuns l i r j with
  | .ok .eq => true
  | _ => false

namespace MergeRule

variable {rule : MergeRule} {l r : Row} {ls rs : List Row}

/-- Whether the keys of two rows, one of each side, compare equal. -/
def partners (rule : MergeRule) (l r : Row) : Bool :=
  rule.comparator.agree l.values rule.leftOffset r.values rule.rightOffset

/-- The rows of the output side that have a partner on the other side. -/
def semijoin (rule : MergeRule) (ls rs : List Row) : List Row :=
  match rule.output with
  | .left => ls.filter fun l => rs.any fun r => rule.partners l r
  | .right => rs.filter fun r => ls.any fun l => rule.partners l r

/-- Of the rows of two sides, those of the output side. -/
def emitted (rule : MergeRule) (ls rs : List Row) : List Row :=
  match rule.output with
  | .left => ls
  | .right => rs

/-- Of the rows of two sides, those that only decide what is emitted. -/
def deciding (rule : MergeRule) (ls rs : List Row) : List Row :=
  match rule.output with
  | .left => rs
  | .right => ls

/-- Every row of one side can be compared with every row of the other. -/
def Comparable (rule : MergeRule) (ls rs : List Row) : Prop :=
  ∀ l ∈ ls, ∀ r ∈ rs, ∃ o,
    rule.comparator.compareRuns l.values rule.leftOffset r.values rule.rightOffset = .ok o

instance : Decidable (rule.Comparable ls rs) :=
  inferInstanceAs (Decidable (∀ l ∈ ls, _))

theorem Comparable.tail_left (h : rule.Comparable (l :: ls) rs) : rule.Comparable ls rs :=
  fun l' hl' => h l' (List.mem_cons_of_mem l hl')

theorem Comparable.tail_right (h : rule.Comparable ls (r :: rs)) : rule.Comparable ls rs :=
  fun l' hl' r' hr' => h l' hl' r' (List.mem_cons_of_mem r hr')

/-! ### One row more -/

theorem semijoin_nil_left : rule.semijoin [] rs = [] := by
  unfold semijoin
  cases rule.output <;> simp

theorem semijoin_nil_right : rule.semijoin ls [] = [] := by
  unfold semijoin
  cases rule.output <;> simp

theorem semijoin_cons_left_of_partner (houtput : rule.output = .left)
    (h : ∃ r ∈ rs, rule.partners l r) : rule.semijoin (l :: ls) rs = l :: rule.semijoin ls rs := by
  simp only [semijoin, houtput]
  exact List.filter_cons_of_pos (List.any_eq_true.mpr h)

theorem semijoin_cons_right_of_partner (houtput : rule.output = .right)
    (h : ∃ l ∈ ls, rule.partners l r) : rule.semijoin ls (r :: rs) = r :: rule.semijoin ls rs := by
  simp only [semijoin, houtput]
  exact List.filter_cons_of_pos (List.any_eq_true.mpr h)

/-- A row without a partner is neither emitted nor missed. -/
theorem semijoin_cons_left_of_forall (h : ∀ r ∈ rs, rule.partners l r = false) :
    rule.semijoin (l :: ls) rs = rule.semijoin ls rs := by
  unfold semijoin
  cases rule.output with
  | left =>
    have hnone : (rs.any fun r => rule.partners l r) = false := by
      simpa using h
    simp only [List.filter_cons, hnone, Bool.false_eq_true, if_false]
  | right =>
    apply List.filter_congr
    intro r hr
    rw [List.any_cons, h r hr, Bool.false_or]

theorem semijoin_cons_right_of_forall (h : ∀ l ∈ ls, rule.partners l r = false) :
    rule.semijoin ls (r :: rs) = rule.semijoin ls rs := by
  unfold semijoin
  cases rule.output with
  | left =>
    apply List.filter_congr
    intro l hl
    rw [List.any_cons, h l hl, Bool.false_or]
  | right =>
    have hnone : (ls.any fun l => rule.partners l r) = false := by
      simpa using h
    simp only [List.filter_cons, hnone, Bool.false_eq_true, if_false]

/-! ### Ascending rows -/

/-- A row that comes before the first of ascending rows is the partner of none. -/
theorem partners_eq_false_of_lt
    (hlt : rule.comparator.compareRuns l.values rule.leftOffset r.values rule.rightOffset =
      .ok .lt) (hrs : rule.comparator.Ascending rule.rightOffset (r :: rs)) :
    ∀ r' ∈ r :: rs, rule.partners l r' = false := by
  have hfirst : rule.partners l r = false := by
    rw [partners, KeyComparator.agree, hlt]
  rw [List.forall_mem_cons]
  refine ⟨hfirst, fun r' hr' => ?_⟩
  have hafter := (List.pairwise_cons.mp hrs.pairwise).1 r' hr'
  rw [partners, KeyComparator.agree, KeyComparator.compareRuns_lt_of_lt_of_notAfter hlt hafter]

theorem partners_eq_false_of_gt
    (hgt : rule.comparator.compareRuns l.values rule.leftOffset r.values rule.rightOffset =
      .ok .gt) (hls : rule.comparator.Ascending rule.leftOffset (l :: ls)) :
    ∀ l' ∈ l :: ls, rule.partners l' r = false := by
  have hfirst : rule.partners l r = false := by
    rw [partners, KeyComparator.agree, hgt]
  rw [List.forall_mem_cons]
  refine ⟨hfirst, fun l' hl' => ?_⟩
  have hafter := (List.pairwise_cons.mp hls.pairwise).1 l' hl'
  have hlt := KeyComparator.compareRuns_lt_of_lt_of_notAfter
    (KeyComparator.compareRuns_swap hgt) hafter
  rw [partners, KeyComparator.agree, KeyComparator.compareRuns_swap hlt]
  rfl

theorem partners_of_eq
    (heq : rule.comparator.compareRuns l.values rule.leftOffset r.values rule.rightOffset =
      .ok .eq) : rule.partners l r := by
  rw [partners, KeyComparator.agree, heq]

/-- The inner merge of ascending rows is their semijoin. -/
theorem merge_inner (hjoin : rule.join = .inner)
    (hls : rule.comparator.Ascending rule.leftOffset ls)
    (hrs : rule.comparator.Ascending rule.rightOffset rs)
    (hcomparable : rule.Comparable ls rs) :
    rule.merge none none ls rs = ⟨rule.semijoin ls rs, none⟩ := by
  have hleftover : ∀ side rows, rule.leftover side rows none = ⟨[], none⟩ := by
    intro side rows
    cases rows with
    | nil => rfl
    | cons row rest => rw [leftover, hjoin]; rfl
  fun_induction MergeRule.merge rule none none ls rs with
  | case1 rs e h => cases h
  | case2 rs _ => rw [hleftover, semijoin_nil_left]
  | case3 l ls e h => cases h
  | case4 l ls _ => rw [hleftover, semijoin_nil_right]
  | case5 l ls r rs e herror =>
    obtain ⟨o, ho⟩ := hcomparable l List.mem_cons_self r List.mem_cons_self
    rw [herror] at ho
    cases ho
  | case6 l ls r rs heq houtput ih =>
    rw [ih hls.tail hrs hcomparable.tail_left, semijoin_cons_left_of_partner houtput
      ⟨r, List.mem_cons_self, partners_of_eq heq⟩]
    rfl
  | case7 l ls r rs heq houtput ih =>
    rw [ih hls hrs.tail hcomparable.tail_right, semijoin_cons_right_of_partner houtput
      ⟨l, List.mem_cons_self, partners_of_eq heq⟩]
    rfl
  | case8 l ls r rs hlt hleft ih => simp [hjoin] at hleft
  | case9 l ls r rs hlt hleft ih =>
    rw [ih hls.tail hrs hcomparable.tail_left,
      semijoin_cons_left_of_forall (partners_eq_false_of_lt hlt hrs)]
  | case10 l ls r rs hgt hright ih => simp [hjoin] at hright
  | case11 l ls r rs hgt hright ih =>
    rw [ih hls hrs.tail hcomparable.tail_right,
      semijoin_cons_right_of_forall (partners_eq_false_of_gt hgt hls)]

/-- Without compared fields every two rows are partners. -/
theorem semijoin_of_width_zero (hwidth : rule.comparator.directions = []) :
    rule.semijoin ls rs = if (rule.deciding ls rs).isEmpty then [] else rule.emitted ls rs := by
  have hall : ∀ l r, rule.partners l r = true := by
    intro l r
    apply partners_of_eq
    rw [KeyComparator.compareRuns, hwidth, KeyComparator.compareFields_nil]
  unfold semijoin emitted deciding
  cases rule.output with
  | left => cases rs <;> simp [hall]
  | right => cases ls <;> simp [hall]

end MergeRule

namespace IntersectionRequest

variable {L R : Type} [Cursor L] [Cursor R] {left : InputRequest L} {right : InputRequest R}
  {fields : Nat} {directions : List Direction} {output : Side} {m : Intersection L R}
  {stores : Stores} {context : QueryContext} {leftRows rightRows : List Row}

/-- The rule of an inner intersection that is asked for. -/
def innerRule (left : InputRequest L) (right : InputRequest R) (directions : List Direction)
    (output : Side) : MergeRule :=
  ⟨⟨directions⟩, left.keyStart, right.keyStart, .inner, output⟩

/-- What an inner intersection of two ascending streams streams. -/
theorem streams_inner
    (hbuild : build ⟨some left, some right, fields, directions, some (.inner, output)⟩ = .ok m)
    (hcontext : context.interruption? = .none)
    (hleft : Cursor.Streams stores context left.cursor leftRows .none)
    (hright : Cursor.Streams stores context right.cursor rightRows .none)
    (hls : KeyComparator.Ascending ⟨directions⟩ left.keyStart (left.counted leftRows))
    (hrs : KeyComparator.Ascending ⟨directions⟩ right.keyStart (right.counted rightRows))
    (hcomparable : (innerRule left right directions output).Comparable (left.counted leftRows)
      (right.counted rightRows)) :
    Cursor.Streams stores context m
      ((innerRule left right directions output).semijoin (left.counted leftRows)
        (right.counted rightRows)) .none :=
  streams_of_ascending hbuild hcontext hleft hright hls hrs
    (MergeRule.merge_inner rfl hls hrs hcomparable)

/-- **An inner intersection is a semijoin.**  An accepted inner intersection of two streams whose
rows of the declared types ascend, with keys that can be compared, gives the rows of the output
side that have a partner, in order.  Without compared fields every two rows are partners. -/
theorem collect_inner
    (hbuild : build ⟨some left, some right, fields, directions, some (.inner, output)⟩ = .ok m)
    (hcontext : context.interruption? = .none)
    (hleft : Cursor.Streams stores context left.cursor leftRows .none)
    (hright : Cursor.Streams stores context right.cursor rightRows .none)
    (hls : KeyComparator.Ascending ⟨directions⟩ left.keyStart (left.counted leftRows))
    (hrs : KeyComparator.Ascending ⟨directions⟩ right.keyStart (right.counted rightRows))
    (hcomparable : (innerRule left right directions output).Comparable (left.counted leftRows)
      (right.counted rightRows)) :
    (Cursor.collect stores context m).result =
        .ok ((innerRule left right directions output).semijoin (left.counted leftRows)
          (right.counted rightRows)) ∧
      (fields = 0 →
        (innerRule left right directions output).semijoin (left.counted leftRows)
            (right.counted rightRows) =
          if ((innerRule left right directions output).deciding (left.counted leftRows)
              (right.counted rightRows)).isEmpty then []
          else (innerRule left right directions output).emitted (left.counted leftRows)
            (right.counted rightRows)) := by
  refine ⟨(streams_inner hbuild hcontext hleft hright hls hrs hcomparable).collect, ?_⟩
  rintro rfl
  obtain ⟨-, -, hcount, -⟩ := build_eq_ok_iff.mp hbuild
  obtain rfl := List.eq_nil_of_length_eq_zero hcount
  have hwidth : (innerRule left right [] output).comparator.directions = [] := rfl
  exact MergeRule.semijoin_of_width_zero hwidth

/-- Named numbers, with a row of another type among them. -/
def sampleLeft : InputRequest RowsCursor where
  cursor := .ofRows (.derived "named" [.text, .int])
    [⟨.derived "named" [.text, .int], [.text "a", .int 7]⟩,
      ⟨.derived "named" [.text, .int], [.text "b", .int 5]⟩,
      ⟨.derived "other" [], []⟩,
      ⟨.derived "named" [.text, .int], [.text "c", .int 5]⟩,
      ⟨.derived "named" [.text, .int], [.text "d", .int 3]⟩]
  rowType := .derived "named" [.text, .int]
  orderingFields := 1

/-- Numbers, some of them twice. -/
def sampleRight : InputRequest RowsCursor where
  cursor := .ofRows (.derived "number" [.int])
    [⟨.derived "number" [.int], [.int 5]⟩,
      ⟨.derived "number" [.int], [.int 5]⟩,
      ⟨.derived "number" [.int], [.int 4]⟩]
  rowType := .derived "number" [.int]
  orderingFields := 1

/-- Two rows of each side share a key, and each of the output side is emitted once. -/
theorem collect_inner_sample :
    (Cursor.collect (fun _ => .empty) .standard
        (made sampleLeft sampleRight [.desc] .inner .left)).result =
      .ok [⟨.derived "named" [.text, .int], [.text "b", .int 5]⟩,
        ⟨.derived "named" [.text, .int], [.text "c", .int 5]⟩] := by
  have hbuild : build ⟨some sampleLeft, some sampleRight, 1, [.desc], some (.inner, .left)⟩ =
      .ok (made sampleLeft sampleRight [.desc] .inner .left) := rfl
  have hleft : Cursor.Streams (fun _ => .empty) .standard sampleLeft.cursor
      sampleLeft.cursor.rows .none := RowsCursor.streams _ rfl rfl
  have hright : Cursor.Streams (fun _ => .empty) .standard sampleRight.cursor
      sampleRight.cursor.rows .none := RowsCursor.streams _ rfl rfl
  have hresult := (collect_inner hbuild rfl hleft hright (by decide) (by decide) (by decide)).1
  rw [hresult]
  decide

end IntersectionRequest

end TableGroups
