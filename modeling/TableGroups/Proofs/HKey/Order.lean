import Mathlib.Data.List.Forall2
import TableGroups.Association
import TableGroups.Proofs.HKey.Recipe
import TableGroups.Proofs.Store.Run
import TableGroups.Proofs.Value.Places

/-!
# Among equal keys, index order is key order

An index compares two of its rows column by column, and their hierarchical keys are compared segment
by segment.  Both are decided by the first of certain places at which the rows differ: all places in
turn (`compareAlong_eq_firstDifference`), and the places from which the recipe of the index copies
(`compareLex_read`).

The places of the recipe are not those of the columns.  A column of the key may be read from a key
column of the index, and several of them from one place.  But what is not there yet is appended in
the order of the key, so the key columns and then the places that the recipe names for the first
time are all the columns in turn (`Index.Built.addMissing_sources`).  A place that was passed
without a difference decides nothing when it comes again, and this leaves the two orders the same.

* `Index.Built.compareRows_eq_order`: rows with equal key columns are in index order as their
  hierarchical keys are.
-/

namespace TableGroups

/-! ### Keys by places -/

section Places

variable {f : Nat → Ordering} {r s : List Value} {ps qs : List Nat}

/-- After places without a difference, only those decide that are missing among them. -/
theorem firstDifference_addMissing (h : ∀ p ∈ ps, f p = .eq) :
    firstDifference f (addMissing ps qs) = firstDifference f qs := by
  induction qs generalizing ps with
  | nil => exact firstDifference_of_forall_eq h
  | cons q qs ih =>
    rw [addMissing_cons, firstDifference]
    split
    · next hmem =>
      rw [ih h, h q hmem]
      rfl
    · by_cases hq : f q = .eq
      · have hpassed : ∀ p ∈ ps ++ [q], f p = .eq := by
          intro p hp
          rcases List.mem_append.mp hp with hp | hp
          · exact h p hp
          · rwa [List.mem_singleton.mp hp]
        rw [ih hpassed, hq]
        rfl
      · -- the new place decides, and nothing behind it counts
        obtain ⟨added, hadded⟩ := @exists_addMissing_eq_append (ps ++ [q]) qs
        rw [hadded, firstDifference_append, firstDifference_append,
          firstDifference_of_forall_eq h]
        cases hout : f q <;> simp_all [firstDifference]

/-- Values copied from places of two rows compare as the rows do at these places. -/
theorem compareLex_filterMap (hps : ∀ p ∈ ps, p < r.length ∧ p < s.length) :
    List.compareLex Value.canonicalCompare (ps.filterMap (r[·]?)) (ps.filterMap (s[·]?)) =
      firstDifference (compareAt r s) ps := by
  induction ps with
  | nil => rfl
  | cons p ps ih =>
    rw [List.forall_mem_cons] at hps
    obtain ⟨⟨hr, hs⟩, hrest⟩ := hps
    rw [List.filterMap_cons_some (List.getElem?_eq_getElem hr),
      List.filterMap_cons_some (List.getElem?_eq_getElem hs), List.compareLex_cons_cons, ih hrest,
      firstDifference, compareAt_of_lt hr hs]

/-- Keys made by one recipe compare as the rows do at the places that it copies from. -/
theorem compareLex_read {recipes : List SegmentRecipe}
    (hps : ∀ p ∈ recipes.flatMap (·.positions), p < r.length ∧ p < s.length) :
    List.compareLex HKeySegment.order (recipes.map (·.read r)) (recipes.map (·.read s)) =
      firstDifference (compareAt r s) (recipes.flatMap (·.positions)) := by
  induction recipes with
  | nil => rfl
  | cons recipe recipes ih =>
    rw [List.flatMap_cons, List.forall_mem_append] at hps
    have hordinal : compare recipe.ordinal recipe.ordinal = .eq := Std.ReflCmp.compare_self
    have hfirst : HKeySegment.order (recipe.read r) (recipe.read s) =
        firstDifference (compareAt r s) recipe.positions := by
      simp only [HKeySegment.order, SegmentRecipe.read, hordinal, compareLex_filterMap hps.1]
      rfl
    rw [List.map_cons, List.map_cons, List.compareLex_cons_cons, List.flatMap_cons,
      firstDifference_append, hfirst, ih hps.2]

end Places

/-! ### The places of a recipe -/

variable {index : Index} {branch : List Table} {columns more all : List IndexColumn}
  {target : ColumnRef} {r s : List Value} {p : Nat}

theorem lt_of_sourcePosition? (h : sourcePosition? branch columns target = some p) :
    p < columns.length := by
  obtain ⟨column, hcolumn, -⟩ := carries_of_sourcePosition? h
  exact (List.getElem?_eq_some_iff.mp hcolumn).1

/-- Columns that are appended do not take a place over. -/
theorem sourcePosition?_append (h : sourcePosition? branch columns target = some p) :
    sourcePosition? branch (columns ++ more) target = some p := by
  rw [sourcePosition?] at h ⊢
  rw [List.findIdx?_append, h]
  rfl

namespace IndexDraft

/-- The places of what is wanted, added to those of the columns that were there, are the places of
all columns in turn. -/
theorem addMissing_of_complete {name : IndexName} {targets : List ColumnRef}
    (hsound : ∀ table ∈ branch, table.Sound) (hnames : (branch.map (·.name)).Nodup)
    (h : complete name branch targets columns = .ok all) :
    ∃ ps, targets.mapM (sourcePosition? branch all) = some ps ∧
      addMissing (List.range columns.length) ps = List.range all.length := by
  induction targets generalizing columns with
  | nil =>
    cases h
    exact ⟨[], rfl, rfl⟩
  | cons target rest ih =>
    rw [complete] at h
    split at h
    · next hcarried =>
      obtain ⟨p, hp⟩ := Option.isSome_iff_exists.mp hcarried
      obtain ⟨ps, hps, hadd⟩ := ih h
      obtain ⟨added, rfl, -⟩ := complete_spec h
      refine ⟨p :: ps, mapM_eq_some_iff.mpr
        (.cons (sourcePosition?_append hp) (mapM_eq_some_iff.mp hps)), ?_⟩
      rw [addMissing_cons, if_pos (List.mem_range.mpr (lt_of_sourcePosition? hp)), hadd]
    next hmissing =>
    split at h
    · cases h
    next name' column hsupplier =>
    -- the column that is appended is the first to carry what is wanted
    have hplace : sourcePosition? branch
        (columns ++ [⟨name', column, columns.length, .asc⟩]) target = some columns.length := by
      have hnone : List.findIdx? (·.carries branch target) columns = none :=
        Option.not_isSome_iff_eq_none.mp hmissing
      have hcarries := carries_of_supplier? hsound hnames hsupplier columns.length .asc
      rw [sourcePosition?, List.findIdx?_append, hnone, List.findIdx?_cons, hcarries]
      simp
    obtain ⟨ps, hps, hadd⟩ := ih h
    obtain ⟨added, rfl, -⟩ := complete_spec h
    refine ⟨columns.length :: ps, mapM_eq_some_iff.mpr
      (.cons (sourcePosition?_append hplace) (mapM_eq_some_iff.mp hps)), ?_⟩
    rw [List.length_append, List.length_singleton, List.range_succ] at hadd
    rw [addMissing_cons, if_neg (by simp), hadd]

end IndexDraft

namespace HKeyRecipe

variable {ordinals : Ordinals} {recipe : HKeyRecipe}

theorem position_eq_ok_iff :
    position index target = .ok p ↔
      sourcePosition? index.branch index.allColumns target = some p := by
  rw [position]
  cases sourcePosition? index.branch index.allColumns target <;> simp

/-- The recipe of a segment copies from the places of the columns of the segment. -/
theorem segment_ok {layout : HKeySegmentLayout} {segment : SegmentRecipe}
    (h : HKeyRecipe.segment index ordinals layout = .ok segment) :
    layout.columns.mapM (sourcePosition? index.branch index.allColumns) =
      some segment.positions := by
  rw [HKeyRecipe.segment] at h
  split at h
  · cases h
  simp only [bind, Except.bind, pure, Except.pure] at h
  split at h
  · cases h
  next places hplaces =>
  cases h
  refine mapM_eq_some_iff.mpr ((mapM_eq_ok_iff.mp hplaces).imp ?_)
  exact fun _ _ => position_eq_ok_iff.mp

/-- The recipe of an index copies from the places of the columns of the key. -/
theorem ofIndex_ok (h : ofIndex index ordinals = .ok recipe) :
    recipe.rowWidth = index.width ∧
      index.hkeyLayout.columns.mapM (sourcePosition? index.branch index.allColumns) =
        some (recipe.segments.flatMap (·.positions)) := by
  simp only [ofIndex, bind, Except.bind, pure, Except.pure] at h
  split at h
  · cases h
  next segments hsegments =>
  cases h
  refine ⟨rfl, ?_⟩
  rw [mapM_eq_some_iff, HKeyLayout.columns]
  rw [mapM_eq_ok_iff] at hsegments
  exact List.rel_flatMap hsegments fun _ _ hsegment => mapM_eq_some_iff.mp (segment_ok hsegment)

/-- Rows of the width of the recipe have keys. -/
theorem hkey_of_length (h : r.length = recipe.rowWidth) :
    recipe.hkey r = .ok ⟨recipe.segments.map (·.read r)⟩ := by
  rw [hkey, if_pos h]
  rfl

end HKeyRecipe

/-! ### The two orders -/

namespace Index

variable {ordinals : Ordinals} {association : Association}

/-- The key columns, and then what a recipe copies for the first time, are all columns in turn. -/
theorem Built.addMissing_sources (h : index.Built) (hsound : index.leaf.Sound)
    (hnames : (index.leaf.lineage.map (·.name)).Nodup) :
    ∃ ps, index.hkeyLayout.columns.mapM (sourcePosition? index.branch index.allColumns) = some ps ∧
      addMissing (List.range index.keyColumns.length) ps = List.range index.width := by
  obtain ⟨draft, -, hbuild⟩ := h
  obtain ⟨_, -, -, -, -, -, hcomplete⟩ := IndexDraft.build_spec hbuild
  exact IndexDraft.addMissing_of_complete
    (fun _ htable => hsound.of_mem_lineage (mem_lineage_of_mem_branch htable))
    (nodup_names_branch hnames) hcomplete

/-- Behind the key columns the directions do not count. -/
theorem Built.getD_directions (h : index.Built) (hp : index.keyColumns.length ≤ p) :
    index.directions[p]?.getD .asc = .asc := by
  have hdrop := h.directions_drop
  obtain ⟨i, rfl⟩ := Nat.exists_eq_add_of_le hp
  rw [← List.getElem?_drop, hdrop, List.getElem?_replicate]
  split <;> rfl

/-- Rows with equal key columns are compared at all places in turn, whatever the directions. -/
theorem Built.compareRows_of_keys_eq (h : index.Built)
    (hkeys : ∀ p < index.keyColumns.length, compareAt r s p = .eq) :
    index.compareRows r s = firstDifference (compareAt r s) (List.range index.width) := by
  rw [compareRows, compareAlong_eq_firstDifference, length_directions]
  apply firstDifference_congr
  intro p _
  rcases Nat.lt_or_ge p index.keyColumns.length with hkey | hbehind
  · rw [hkeys p hkey, Direction.orient_eq]
  · rw [h.getD_directions hbehind]
    rfl

/-- **Among equal keys, index order is key order.**  Take two rows of an index whose leaf has a
lineage of distinct names, under ordinals that give the index an association.  If the rows are equal
in every key column, then both have hierarchical keys, and the index orders the rows as their keys
are ordered.  In particular the rows are equal to the index exactly if their keys are equal. -/
theorem Built.compareRows_eq_order (h : index.Built) (hleaf : index.leaf.Declared)
    (hnames : (index.leaf.lineage.map (·.name)).Nodup)
    (hassociation : Association.compute index ordinals = .ok association)
    (hr : r.length = index.width) (hs : s.length = index.width)
    (hkeys : ∀ p < index.keyColumns.length, compareAt r s p = .eq) :
    ∃ a b, association.recipe.hkey r = .ok a ∧ association.recipe.hkey s = .ok b ∧
      index.compareRows r s = a.order b ∧ (index.compareRows r s = .eq ↔ a.order b = .eq) := by
  have hrecipe : HKeyRecipe.ofIndex index ordinals = .ok association.recipe := by
    simp only [Association.compute, bind, Except.bind, pure, Except.pure] at hassociation
    split at hassociation
    · cases hassociation
    next recipe hrecipe =>
    cases hassociation
    exact hrecipe
  obtain ⟨hwidth, hsources⟩ := HKeyRecipe.ofIndex_ok hrecipe
  obtain ⟨ps, hps, hadd⟩ := h.addMissing_sources hleaf.sound hnames
  obtain rfl : ps = association.recipe.segments.flatMap (·.positions) :=
    Option.some.inj (hps.symm.trans hsources)
  have hplaces : ∀ p ∈ association.recipe.segments.flatMap (·.positions),
      p < r.length ∧ p < s.length := by
    intro p hp
    obtain ⟨target, -, htarget⟩ := exists_of_mem_right (mapM_eq_some_iff.mp hps) hp
    rw [hr, hs]
    exact ⟨lt_of_sourcePosition? htarget, lt_of_sourcePosition? htarget⟩
  have horder : index.compareRows r s =
      HKey.order ⟨association.recipe.segments.map (·.read r)⟩
        ⟨association.recipe.segments.map (·.read s)⟩ := by
    rw [h.compareRows_of_keys_eq hkeys, ← hadd,
      firstDifference_addMissing fun p hp => hkeys p (List.mem_range.mp hp)]
    exact (compareLex_read hplaces).symm
  exact ⟨_, _, HKeyRecipe.hkey_of_length (hr.trans hwidth.symm),
    HKeyRecipe.hkey_of_length (hs.trans hwidth.symm), horder, by rw [horder]⟩

/-- Lines by the amount of their sale and by their shop, highest first. -/
def linesByAmount : Index where
  name := ⟨⟨"db", "lines"⟩, "by_amount"⟩
  id := none
  unique := false
  constraint := .key
  span := .group .left
  valid := false
  treeName := "db.lines.by_amount"
  leaf := .lines
  rootDepth := 1
  keyColumns :=
    [⟨⟨"db", "sales"⟩, ⟨"amount", 1, .int, true⟩, 0, .desc⟩,
      ⟨⟨"db", "lines"⟩, ⟨"shop", 3, .int, false⟩, 1, .desc⟩]
  allColumns :=
    [⟨⟨"db", "sales"⟩, ⟨"amount", 1, .int, true⟩, 0, .desc⟩,
      ⟨⟨"db", "lines"⟩, ⟨"shop", 3, .int, false⟩, 1, .desc⟩,
      ⟨⟨"db", "sales"⟩, ⟨"region", 2, .int, false⟩, 2, .asc⟩,
      ⟨⟨"db", "sales"⟩, ⟨"id", 0, .int, false⟩, 3, .asc⟩,
      ⟨⟨"db", "lines"⟩, ⟨"line", 0, .int, false⟩, 4, .asc⟩,
      ⟨⟨"db", "lines"⟩, ⟨"sale", 2, .int, false⟩, 5, .asc⟩]

theorem built_linesByAmount : linesByAmount.Built := by
  refine ⟨{ IndexDraft.overBranch .lines "by_amount" .left with
    keyColumns := linesByAmount.keyColumns
    frozen := true }, rfl, ?_⟩
  decide +kernel

/-- The keys of two lines of one shop take the shop from the second key column, twice, and are
ordered by their sales as the lines are. -/
theorem compareRows_eq_order_linesByAmount :
    ∃ association a b, Association.compute linesByAmount sampleOrdinals = .ok association ∧
      association.recipe.hkey [.int 500, .int 3, .int 10, .int 77, .int 2, .int 77] = .ok a ∧
      association.recipe.hkey [.int 500, .int 3, .int 10, .int 78, .int 1, .int 78] = .ok b ∧
      a = ⟨[⟨1, [.int 3, .int 10]⟩, ⟨2, [.int 10, .int 3, .int 77]⟩, ⟨3, [.int 2, .int 77]⟩]⟩ ∧
      linesByAmount.compareRows [.int 500, .int 3, .int 10, .int 77, .int 2, .int 77]
        [.int 500, .int 3, .int 10, .int 78, .int 1, .int 78] = .lt ∧ a.order b = .lt := by
  have hassociation : Association.compute linesByAmount sampleOrdinals =
      .ok ⟨1, linesByAmount.allColumns, .ofIndex linesByAmount,
        ⟨linesByAmount.name, 6, [⟨1, [1, 2]⟩, ⟨2, [2, 1, 3]⟩, ⟨3, [4, 5]⟩]⟩⟩ := by
    decide +kernel
  have hkeys : ∀ p < linesByAmount.keyColumns.length,
      compareAt [.int 500, .int 3, .int 10, .int 77, .int 2, .int 77]
        [.int 500, .int 3, .int 10, .int 78, .int 1, .int 78] p = .eq := by decide
  have hlt : linesByAmount.compareRows [.int 500, .int 3, .int 10, .int 77, .int 2, .int 77]
      [.int 500, .int 3, .int 10, .int 78, .int 1, .int 78] = .lt := by decide
  obtain ⟨a, b, ha, hb, horder, -⟩ := built_linesByAmount.compareRows_eq_order
    Table.declared_lines (by decide) hassociation rfl rfl hkeys
  refine ⟨_, a, b, hassociation, ha, hb, ?_, hlt, horder ▸ hlt⟩
  exact (Except.ok.inj ha).symm

end Index

end TableGroups
