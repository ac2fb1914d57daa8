import TableGroups.Association.Cache
import TableGroups.Proofs.Index.Build
import TableGroups.Proofs.ListM
import TableGroups.Proofs.Ordinals

/-!
# Associations and what a cache keeps of them

An association depends on an index, on the generation, and on the numbers of the tables that the
index reads; numbers given to further tables do not change it (`compute_of_extends`).

It asks for the number of every table of its leaf's lineage, and for an index column to every column
of the leaf's hierarchical keys (`exists_compute_iff`).  A built index has such columns if no two
tables of the lineage have one name, so only the numbers are left to ask for
(`Index.Built.exists_compute_iff`), and the first one that is missing is what it fails for
(`Index.Built.compute_eq_error_iff`).

A cache does not know what it keeps.  It answers with what would be computed if that is what it
keeps under the key (`AssociationCache.fst_get`), and all that a look-up can add to it is what was
computed just then (`AssociationCache.find?_get`).
-/

namespace TableGroups

namespace Association

variable {index : Index} {ordinals : Ordinals} {computed : Association}

theorem compute_eq_map :
    compute index ordinals = (index.hkeyLayout.mapM (HKeyRecipe.segment index ordinals)).map
      fun segments => ⟨ordinals.generation, index.allColumns, .ofIndex index,
        ⟨index.name, index.width, segments⟩⟩ := by
  rw [compute, HKeyRecipe.ofIndex]
  cases index.hkeyLayout.mapM (HKeyRecipe.segment index ordinals) <;> rfl

theorem compute_eq_ok_iff :
    compute index ordinals = .ok computed ↔
      ∃ segments, index.hkeyLayout.mapM (HKeyRecipe.segment index ordinals) = .ok segments ∧
        computed = ⟨ordinals.generation, index.allColumns, .ofIndex index,
          ⟨index.name, index.width, segments⟩⟩ := by
  rw [compute_eq_map, map_eq_ok_iff]
  exact exists_congr fun _ => and_congr_right fun _ => eq_comm

/-- An association carries the generation that it was computed for. -/
theorem generation_of_compute (h : compute index ordinals = .ok computed) :
    computed.generation = ordinals.generation := by
  obtain ⟨segments, -, rfl⟩ := compute_eq_ok_iff.mp h
  rfl

theorem segment_of_extends {larger : Ordinals} (hextends : larger.Extends ordinals)
    {layout : HKeySegmentLayout} {segment : SegmentRecipe}
    (h : HKeyRecipe.segment index ordinals layout = .ok segment) :
    HKeyRecipe.segment index larger layout = .ok segment := by
  unfold HKeyRecipe.segment at h ⊢
  cases hordinal : ordinals.ordinal? layout.table with
  | none => simp [hordinal] at h
  | some ordinal =>
    rw [hextends.ordinal? hordinal]
    rwa [hordinal] at h

/-- Numbers for further tables change nothing. -/
theorem compute_of_extends {larger : Ordinals} (hextends : larger.Extends ordinals)
    (h : compute index ordinals = .ok computed) : compute index larger = .ok computed := by
  obtain ⟨segments, hsegments, rfl⟩ := compute_eq_ok_iff.mp h
  rw [mapM_eq_ok_iff] at hsegments
  rw [← hextends.generation]
  exact compute_eq_ok_iff.mpr ⟨segments,
    mapM_eq_ok_iff.mpr (hsegments.imp fun _ _ => segment_of_extends hextends), rfl⟩

end Association

/-! ### What an association asks for -/

section Demands

variable {index : Index} {ordinals : Ordinals} {table : Table} {e : IndexError}

theorem HKeyRecipe.exists_position_iff {target : ColumnRef} :
    (∃ p, position index target = .ok p) ↔
      ∃ column ∈ index.allColumns, column.carries index.branch target := by
  rw [← isSome_sourcePosition?_iff, position]
  cases sourcePosition? index.branch index.allColumns target <;> simp

theorem HKeyRecipe.segment_of_ordinal?_eq_none {layout : HKeySegmentLayout}
    (h : ordinals.ordinal? layout.table = none) :
    segment index ordinals layout = .error (.missingOrdinal index.name layout.table) := by
  rw [segment, h]

theorem HKeyRecipe.exists_segment_iff {layout : HKeySegmentLayout} :
    (∃ recipe, segment index ordinals layout = .ok recipe) ↔
      (ordinals.ordinal? layout.table).isSome ∧
        ∀ target ∈ layout.columns, ∃ p, position index target = .ok p := by
  rw [segment]
  cases ordinals.ordinal? layout.table with
  | none => simp
  | some ordinal =>
    rw [← exists_mapM_eq_ok_iff]
    simp only [bind_eq_ok_iff, Option.isSome_some, true_and]
    exact ⟨fun ⟨_, ps, hps, _⟩ => ⟨ps, hps⟩, fun ⟨ps, hps⟩ => ⟨_, ps, hps, rfl⟩⟩

/-- An association asks for the numbers of the leaf's lineage and for columns that carry the leaf's
hierarchical keys. -/
theorem Association.exists_compute_iff :
    (∃ association, compute index ordinals = .ok association) ↔
      (∀ table ∈ index.leaf.lineage, (ordinals.ordinal? table.name).isSome) ∧
        ∀ target ∈ index.hkeyLayout.columns,
          ∃ column ∈ index.allColumns, column.carries index.branch target := by
  have hsegments : (∃ association, compute index ordinals = .ok association) ↔
      ∃ segments, index.hkeyLayout.mapM (HKeyRecipe.segment index ordinals) = .ok segments := by
    simp only [compute_eq_ok_iff]
    exact ⟨fun ⟨_, segments, h, _⟩ => ⟨segments, h⟩, fun ⟨segments, h⟩ => ⟨_, segments, h, rfl⟩⟩
  rw [hsegments, exists_mapM_eq_ok_iff, Index.hkeyLayout, Table.hkeyLayout, List.forall_mem_map]
  simp only [HKeyRecipe.exists_segment_iff, HKeyRecipe.exists_position_iff]
  constructor
  · intro h
    refine ⟨fun table htable => (h table htable).1, fun target htarget => ?_⟩
    obtain ⟨layout, hlayout, htarget⟩ := List.mem_flatMap.mp htarget
    obtain ⟨table, htable, rfl⟩ := List.mem_map.mp hlayout
    exact (h table htable).2 target htarget
  · rintro ⟨hnumbers, hcarried⟩ table htable
    refine ⟨hnumbers table htable, fun target htarget => hcarried target ?_⟩
    exact List.mem_flatMap.mpr ⟨_, List.mem_map_of_mem htable, htarget⟩

/-- A built index over tables of distinct names can be associated exactly if these have numbers. -/
theorem Index.Built.exists_compute_iff (h : index.Built) (hsound : index.leaf.Sound)
    (hnames : (index.leaf.lineage.map (·.name)).Nodup) :
    (∃ association, Association.compute index ordinals = .ok association) ↔
      ∀ table ∈ index.leaf.lineage, (ordinals.ordinal? table.name).isSome := by
  rw [Association.exists_compute_iff]
  exact ⟨And.left, fun hnumbers => ⟨hnumbers, h.exists_carries hsound hnames⟩⟩

/-- An association of a built index fails for the first table of the lineage without a number, and
for nothing else. -/
theorem Index.Built.compute_eq_error_iff (h : index.Built) (hsound : index.leaf.Sound)
    (hnames : (index.leaf.lineage.map (·.name)).Nodup) :
    Association.compute index ordinals = .error e ↔
      ∃ table, FirstIn (fun table => ordinals.ordinal? table.name = none) index.leaf.lineage table ∧
        e = .missingOrdinal index.name table.name := by
  have hfails : ∀ table ∈ index.leaf.lineage,
      (∀ recipe, HKeyRecipe.segment index ordinals table.segmentLayout ≠ .ok recipe) ↔
        ordinals.ordinal? table.name = none := by
    intro table htable
    have hcarried : ∀ target ∈ table.segmentLayout.columns,
        ∃ p, HKeyRecipe.position index target = .ok p := by
      intro target htarget
      refine HKeyRecipe.exists_position_iff.mpr (h.exists_carries hsound hnames target ?_)
      exact List.mem_flatMap.mpr ⟨_, List.mem_map_of_mem htable, htarget⟩
    rw [← not_exists, HKeyRecipe.exists_segment_iff, ← Option.not_isSome_iff_eq_none]
    exact not_congr (and_iff_left hcarried)
  rw [Association.compute_eq_map, map_eq_error_iff, hkeyLayout, Table.hkeyLayout, List.mapM_map,
    mapM_eq_error_iff]
  refine exists_congr fun table => (and_congr_left' (firstIn_congr hfails)).trans ?_
  refine and_congr_right fun hfirst => ?_
  have hsegment : HKeyRecipe.segment index ordinals table.segmentLayout =
      .error (.missingOrdinal index.name table.name) :=
    HKeyRecipe.segment_of_ordinal?_eq_none hfirst.holds
  rw [Function.comp_apply, hsegment, Except.error.injEq, eq_comm]

end Demands

namespace AssociationCache

variable {cache : AssociationCache} {index : Index} {ordinals : Ordinals} {key : CacheKey}
  {kept : Association}

/-- A look-up answers with what would be computed, if that is what is kept under its key. -/
theorem fst_get
    (h : ∀ kept, cache.entries.find? ⟨index.name, ordinals.generation⟩ = some kept →
      Association.compute index ordinals = .ok kept) :
    (cache.get index ordinals).1 = Association.compute index ordinals := by
  unfold get
  dsimp only
  split
  · next kept hfound => exact (h kept hfound).symm
  · cases Association.compute index ordinals <;> rfl

/-- What can be computed is answered, though maybe with something else. -/
theorem isOk_get {computed : Association} (h : Association.compute index ordinals = .ok computed) :
    (cache.get index ordinals).1.isOk := by
  unfold get
  dsimp only
  split
  · rfl
  · rw [h]
    rfl

/-- What is answered is kept. -/
theorem find?_get_self (h : (cache.get index ordinals).1 = .ok kept) :
    (cache.get index ordinals).2.entries.find? ⟨index.name, ordinals.generation⟩ = some kept := by
  unfold get at h ⊢
  cases hfound : cache.entries.find? ⟨index.name, ordinals.generation⟩ with
  | some found =>
    simp only [hfound] at h ⊢
    cases h
    rfl
  | none =>
    cases hcomputed : Association.compute index ordinals with
    | error e => simp [hfound, hcomputed] at h
    | ok computed =>
      simp only [hfound, hcomputed] at h ⊢
      cases h
      exact SortedMap.find?_insert_self _ _ _

/-- What is kept stays. -/
theorem find?_get_of_find? (h : cache.entries.find? key = some kept) :
    (cache.get index ordinals).2.entries.find? key = some kept := by
  unfold get
  dsimp only
  split
  · exact h
  · next hmissing =>
    split
    · exact h
    · refine (SortedMap.find?_insert_of_ne _ _ ?_).trans h
      rintro rfl
      rw [hmissing] at h
      cases h

/-- What a cache keeps after a look-up it kept before, or it was computed for the look-up. -/
theorem find?_get (h : (cache.get index ordinals).2.entries.find? key = some kept) :
    cache.entries.find? key = some kept ∨
      key = ⟨index.name, ordinals.generation⟩ ∧ Association.compute index ordinals = .ok kept := by
  unfold get at h
  cases hfound : cache.entries.find? ⟨index.name, ordinals.generation⟩ with
  | some found =>
    simp only [hfound] at h
    exact .inl h
  | none =>
    cases hcomputed : Association.compute index ordinals with
    | error e =>
      simp only [hfound, hcomputed] at h
      exact .inl h
    | ok computed =>
      simp only [hfound, hcomputed, SortedMap.find?_insert] at h
      split at h
      · next hkey =>
        cases h
        exact .inr ⟨Std.LawfulEqCmp.eq_of_compare hkey, rfl⟩
      · exact .inl h

/-- Only what was computed for the generation is retained. -/
theorem find?_retain {generation : Nat} :
    (cache.retain generation).entries.find? key = some kept ↔
      cache.entries.find? key = some kept ∧ key.generation = generation := by
  unfold retain
  rw [SortedMap.find?_filter_eq_some_iff, beq_iff_eq]

end AssociationCache

end TableGroups
