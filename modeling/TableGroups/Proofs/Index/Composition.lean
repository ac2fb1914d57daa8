import TableGroups.Proofs.HKey.Order

/-!
# Index rows and the rows they are made of

The composition of an index names for each field of its rows a place in the leaf's row and a place
in the flat hierarchical key, as far as there are such places.  The places are found by searches
through the grouping joins, and neither search knows what a column was read from: columns of an
ancestor may be found in the leaf, several fields may be found in one place of it, and a key column
may be read from a field that is named for an earlier one.

Along a chain of rows none of this matters, because a column holds the value of whatever it carries.
`Composition.Copies` says that an index row copies from a row of the leaf, and from it follow both
ways of reading a composition: what is rebuilt from the index row (`Copies.tableRow_spec`), and
that an index row which is covered by the leaf's row is made of it, and of what is rebuilt
(`Copies.indexRow?_eq`, `Copies.tableRow`).

* `Index.Built.composition_of_chain`: the values of an index row are where its composition says, the
  recipe of the index reads every key column from a field that is named for it or for an equal one
  before it, and the leaf's row is restored as far as the composition names its fields.
-/

namespace TableGroups

namespace Composition

/-! ### Places -/

section Places

variable {index : Index} {i f p : Nat}

theorem fieldPosition?_eq_some_iff :
    (ofIndex index).fieldPosition? i = some f ↔ ∃ column, index.allColumns[i]? = some column ∧
      index.leaf.localEquivalent? ⟨column.table, column.column.position⟩ = some f := by
  simp only [fieldPosition?, ofIndex, List.getElem?_map]
  cases index.allColumns[i]? <;> simp

theorem hkeyPosition?_eq_some_iff :
    (ofIndex index).hkeyPosition? i = some p ↔ ∃ column, index.allColumns[i]? = some column ∧
      index.hkeyLayout.columns.findIdx? (column.carries index.branch) = some p := by
  simp only [hkeyPosition?, ofIndex, List.getElem?_map]
  cases index.allColumns[i]? <;> simp

/-- A field that carries a key column is named for it, or for one before it. -/
theorem exists_hkeyPosition?_of_carries {column : IndexColumn} {target : ColumnRef}
    (hcolumn : index.allColumns[i]? = some column)
    (htarget : index.hkeyLayout.columns[p]? = some target)
    (hcarries : column.carries index.branch target) :
    ∃ q ≤ p, (ofIndex index).hkeyPosition? i = some q := by
  obtain ⟨hp, rfl⟩ := List.getElem?_eq_some_iff.mp htarget
  have hsome : (index.hkeyLayout.columns.findIdx? (column.carries index.branch)).isSome := by
    rw [List.findIdx?_isSome, List.any_eq_true]
    exact ⟨_, List.getElem_mem hp, hcarries⟩
  obtain ⟨q, hq⟩ := Option.isSome_iff_exists.mp hsome
  refine ⟨q, ?_, hkeyPosition?_eq_some_iff.mpr ⟨column, hcolumn, hq⟩⟩
  -- no column before the one found is carried
  obtain ⟨_, -, hbefore⟩ := List.findIdx?_eq_some_iff_getElem.mp hq
  by_contra hlt
  exact hbefore p (Nat.lt_of_not_le hlt) hcarries

end Places

/-! ### Rows of the leaf -/

/-- Put a value into its place in a row, if it has one. -/
def put (row : List Value) (field : Value × Option Nat) : List Value :=
  match field.2 with
  | some p => row.set p field.1
  | none => row

/-- The index row has in each field that the composition finds in the leaf what the row of the leaf
has there. -/
structure Copies (composition : Composition) (leafRow row : List Value) : Prop where
  length : row.length = composition.width
  field {i f : Nat} : composition.fieldPosition? i = some f → row[i]? = leafRow[f]?

variable {composition : Composition} {leafRow row start : List Value} {f i : Nat}

/-- Putting values where another row has them gives this row there, whichever comes last, and
changes nothing else. -/
theorem getElem?_foldl_put {fields : List (Value × Option Nat)}
    (hfields : ∀ v p, (v, some p) ∈ fields → leafRow[p]? = some v)
    (hlength : start.length = leafRow.length) :
    (fields.foldl put start).length = leafRow.length ∧
      ∀ f, (fields.foldl put start)[f]? =
        if some f ∈ fields.map Prod.snd then leafRow[f]? else start[f]? := by
  induction fields generalizing start with
  | nil => exact ⟨hlength, fun f => rfl⟩
  | cons field fields ih =>
    obtain ⟨v, p?⟩ := field
    have hrest : ∀ v p, (v, some p) ∈ fields → leafRow[p]? = some v :=
      fun v p hmem => hfields v p (List.mem_cons_of_mem _ hmem)
    cases p? with
    | none =>
      obtain ⟨hlen, hvalues⟩ := ih hrest hlength
      refine ⟨hlen, fun f => ?_⟩
      have hmem : some f ∈ ((v, none) :: fields).map Prod.snd ↔ some f ∈ fields.map Prod.snd := by
        simp
      show (fields.foldl put start)[f]? = _
      rw [hvalues f]
      simp only [hmem]
    | some p =>
      have hv : leafRow[p]? = some v := hfields v p List.mem_cons_self
      have hp : p < start.length := hlength ▸ (List.getElem?_eq_some_iff.mp hv).1
      obtain ⟨hlen, hvalues⟩ := ih hrest ((List.length_set ..).trans hlength)
      refine ⟨hlen, fun f => ?_⟩
      have hmem : some f ∈ ((v, some p) :: fields).map Prod.snd ↔
          f = p ∨ some f ∈ fields.map Prod.snd := by simp
      show (fields.foldl put (start.set p v))[f]? = _
      rw [hvalues f]
      simp only [hmem]
      by_cases hlater : some f ∈ fields.map Prod.snd
      · rw [if_pos hlater, if_pos (.inr hlater)]
      · by_cases hfp : f = p
        · subst hfp
          rw [if_neg hlater, if_pos (.inl rfl), List.getElem?_set_self hp, hv]
        · rw [if_neg hlater, if_neg (not_or.mpr ⟨hfp, hlater⟩), List.getElem?_set_ne (Ne.symm hfp)]

/-- What is rebuilt from an index row has the width of the leaf's row, and what this row has in the
fields that the composition names; all others are null. -/
theorem Copies.tableRow_spec (h : composition.Copies leafRow row) :
    (composition.tableRow row leafRow.length).length = leafRow.length ∧
      ∀ f, (composition.tableRow row leafRow.length)[f]? =
        if some f ∈ composition.fieldPositions then leafRow[f]?
        else (List.replicate leafRow.length Value.null)[f]? := by
  have hfields : ∀ v p, (v, some p) ∈ row.zip composition.fieldPositions →
      leafRow[p]? = some v := by
    intro v p hmem
    obtain ⟨i, hi⟩ := List.mem_iff_getElem?.mp hmem
    obtain ⟨hv, hp⟩ := List.getElem?_zip_eq_some.mp hi
    have hposition : composition.fieldPosition? i = some p := by rw [fieldPosition?, hp]; rfl
    rw [← h.field hposition, hv]
  have hspec := getElem?_foldl_put hfields (List.length_replicate (a := Value.null))
  have hnamed : (row.zip composition.fieldPositions).map Prod.snd = composition.fieldPositions :=
    List.map_snd_zip (Nat.le_of_eq h.length.symm)
  rw [hnamed] at hspec
  exact hspec

/-- The index row copies from what is rebuilt from it as well. -/
theorem Copies.tableRow (h : composition.Copies leafRow row) :
    composition.Copies (composition.tableRow row leafRow.length) row := by
  refine ⟨h.length, fun {i f} hposition => ?_⟩
  have hnamed : some f ∈ composition.fieldPositions := by
    have hjoin : composition.fieldPositions[i]?.join = some f := hposition
    exact List.mem_of_getElem? (Option.join_eq_some_iff.mp hjoin)
  rw [h.tableRow_spec.2 f, if_pos hnamed]
  exact h.field hposition

/-- An index row whose fields are all found in the leaf is what the composition makes of the row
that it copies from. -/
theorem Copies.indexRow?_eq (h : composition.Copies leafRow row)
    (hcovers : composition.coversTableRow) : composition.indexRow? leafRow = some row := by
  rw [indexRow?, mapM_eq_some_iff, List.forall₂_iff_get]
  refine ⟨h.length.symm, fun i hi hrow => ?_⟩
  obtain ⟨f, hf⟩ := Option.isSome_iff_exists.mp
    (List.all_eq_true.mp hcovers _ (List.getElem_mem hi))
  have hposition : composition.fieldPosition? i = some f := by
    rw [fieldPosition?, List.getElem?_eq_getElem hi, hf]
    rfl
  have hvalue : leafRow[f]? = some row[i] := by
    rw [← h.field hposition]
    exact List.getElem?_eq_getElem hrow
  show composition.fieldPositions[i].bind (leafRow[·]?) = some row[i]
  rw [hf]
  exact hvalue

end Composition

/-! ### Chains of rows -/

namespace Index

variable {index : Index} {rows : TableName → List Value} {row key : List Value}
  {ordinals : Ordinals} {recipe : HKeyRecipe} {target : ColumnRef}

/-- The values of the hierarchical key in a row, given a row for each table. -/
def keyValues? (index : Index) (rows : TableName → List Value) : Option (List Value) :=
  index.hkeyLayout.columns.mapM fun target => (rows target.table)[target.position]?

section

variable (hsound : index.leaf.Sound) (hchain : index.leaf.Chain rows)
  (hrow : index.allColumns.mapM (·.read rows) = some row)

include hsound hchain hrow

/-- An index row copies from the row of the leaf. -/
theorem copies_of_chain : (Composition.ofIndex index).Copies (rows index.leaf.name) row := by
  refine ⟨?_, fun {i f} hposition => ?_⟩
  · rw [← (mapM_eq_some_iff.mp hrow).length_eq]
    exact (List.length_map ..).symm
  · obtain ⟨column, hcolumn, hequivalent⟩ := Composition.fieldPosition?_eq_some_iff.mp hposition
    rw [getElem?_of_mapM_eq_some hrow hcolumn, IndexColumn.read]
    exact (hchain.getElem?_of_localEquivalent? hsound hequivalent).symm

/-- A field that carries a column of the lineage holds its value. -/
theorem getElem?_of_carries {i : Nat} {column : IndexColumn}
    (hcolumn : index.allColumns[i]? = some column)
    (hcarries : column.carries index.branch target) :
    row[i]? = (rows target.table)[target.position]? := by
  rw [getElem?_of_mapM_eq_some hrow hcolumn]
  exact Table.Chain.read_of_carries
    (fun _ htable => hsound.of_mem_lineage (mem_lineage_of_mem_branch htable))
    (fun _ htable => hchain.of_mem_lineage (mem_lineage_of_mem_branch htable)) hcarries

/-- A field that is named for a place of the key holds the value there. -/
theorem getElem?_of_hkeyPosition? (hkey : index.keyValues? rows = some key) {i p : Nat}
    (h : (Composition.ofIndex index).hkeyPosition? i = some p) :
    p < key.length ∧ row[i]? = key[p]? := by
  obtain ⟨column, hcolumn, hfound⟩ := Composition.hkeyPosition?_eq_some_iff.mp h
  obtain ⟨hp, hcarries, -⟩ := List.findIdx?_eq_some_iff_getElem.mp hfound
  refine ⟨(mapM_eq_some_iff.mp hkey).length_eq ▸ hp, ?_⟩
  rw [getElem?_of_mapM_eq_some hkey (List.getElem?_eq_getElem hp)]
  exact getElem?_of_carries hsound hchain hrow hcolumn hcarries

/-- The field that a recipe reads for a key column is named for it or for an equal one before it. -/
theorem exists_hkeyPosition?_of_recipe (hkey : index.keyValues? rows = some key)
    (hrecipe : HKeyRecipe.ofIndex index ordinals = .ok recipe) {p : Nat} (hp : p < key.length) :
    ∃ i q, (recipe.segments.flatMap (·.positions))[p]? = some i ∧
      (Composition.ofIndex index).hkeyPosition? i = some q ∧ q ≤ p ∧ key[q]? = key[p]? := by
  obtain ⟨-, hsources⟩ := HKeyRecipe.ofIndex_ok hrecipe
  have hcolumns : p < index.hkeyLayout.columns.length :=
    (mapM_eq_some_iff.mp hkey).length_eq ▸ hp
  have htarget := List.getElem?_eq_getElem hcolumns
  obtain ⟨i, hi, hsource⟩ := exists_getElem?_of_forall₂ (mapM_eq_some_iff.mp hsources) htarget
  obtain ⟨column, hcolumn, hcarries⟩ := carries_of_sourcePosition? hsource
  obtain ⟨q, hq, hposition⟩ :=
    Composition.exists_hkeyPosition?_of_carries hcolumn htarget hcarries
  refine ⟨i, q, hi, hposition, hq, ?_⟩
  -- both are the value of the field
  calc key[q]? = row[i]? := (getElem?_of_hkeyPosition? hsound hchain hrow hkey hposition).2.symm
    _ = _ := getElem?_of_carries hsound hchain hrow hcolumn hcarries
    _ = key[p]? := (getElem?_of_mapM_eq_some hkey htarget).symm

/-- The values of the key that a recipe makes of the row are those of the chain. -/
theorem values_of_recipe (hkey : index.keyValues? rows = some key)
    (hrecipe : HKeyRecipe.ofIndex index ordinals = .ok recipe) :
    ∃ made : HKey, recipe.hkey row = .ok made ∧ made.segments.flatMap (·.values) = key := by
  obtain ⟨hwidth, hsources⟩ := HKeyRecipe.ofIndex_ok hrecipe
  have hlength : row.length = recipe.rowWidth := by
    rw [hwidth]
    exact (mapM_eq_some_iff.mp hrow).length_eq.symm
  refine ⟨_, HKeyRecipe.hkey_of_length hlength, ?_⟩
  have hread : index.hkeyLayout.columns.mapM (fun target => (rows target.table)[target.position]?) =
      (recipe.segments.flatMap (·.positions)).mapM (row[·]?) := by
    refine mapM_eq_of_forall₂ ((mapM_eq_some_iff.mp hsources).imp fun target i hsource => ?_)
    obtain ⟨column, hcolumn, hcarries⟩ := carries_of_sourcePosition? hsource
    exact (getElem?_of_carries hsound hchain hrow hcolumn hcarries).symm
  have hvalues := filterMap_of_mapM_eq_some (hread.symm.trans hkey)
  rw [← hvalues, List.flatMap_map, List.filterMap_flatMap]
  rfl

end

/-- The chain has values for the whole key. -/
theorem Built.exists_keyValues (h : index.Built) (hsound : index.leaf.Sound)
    (hnames : (index.leaf.lineage.map (·.name)).Nodup) (hchain : index.leaf.Chain rows) :
    ∃ key, index.keyValues? rows = some key := by
  obtain ⟨row, hrow⟩ := h.exists_row hsound hchain
  refine exists_mapM_eq_some fun target htarget => ?_
  obtain ⟨column, hmem, hcarries⟩ := h.exists_carries hsound hnames target htarget
  obtain ⟨i, hcolumn⟩ := List.mem_iff_getElem?.mp hmem
  rw [← getElem?_of_carries hsound hchain hrow hcolumn hcarries]
  obtain ⟨v, hv, -⟩ := exists_getElem?_of_forall₂ (mapM_eq_some_iff.mp hrow) hcolumn
  rw [hv]
  rfl

/-- **Compositions are right about values.**  Take a chain of rows down to the leaf of an index, and
the index row made of their fields.  Where the composition of the index names a field of the leaf,
the index row has the leaf's value, and where it names a place of the flat hierarchical key, it has
the value there.  A recipe makes the key of these values, and each of them it reads from a field
that is named for this place or for an earlier one with an equal value.  The row rebuilt from the
index row is that of the leaf in all fields that the composition names, and null in all others.  If
all fields of the index row are found in the leaf, the leaf's row makes the index row, and so does
the rebuilt one. -/
theorem Built.composition_of_chain (h : index.Built) (hleaf : index.leaf.Declared)
    (hnames : (index.leaf.lineage.map (·.name)).Nodup) (hchain : index.leaf.Chain rows) :
    ∃ row key, index.allColumns.mapM (·.read rows) = some row ∧
      index.keyValues? rows = some key ∧
      let composition := Composition.ofIndex index
      let leafRow := rows index.leaf.name
      let rebuilt := composition.tableRow row index.leaf.columns.length
      (∀ i f, composition.fieldPosition? i = some f →
          f < leafRow.length ∧ row[i]? = leafRow[f]?) ∧
        (∀ i p, composition.hkeyPosition? i = some p → p < key.length ∧ row[i]? = key[p]?) ∧
        (∀ ordinals recipe, HKeyRecipe.ofIndex index ordinals = .ok recipe →
          (∃ made : HKey, recipe.hkey row = .ok made ∧
              made.segments.flatMap (·.values) = key) ∧
            ∀ p < key.length, ∃ i q, (recipe.segments.flatMap (·.positions))[p]? = some i ∧
              composition.hkeyPosition? i = some q ∧ q ≤ p ∧ key[q]? = key[p]?) ∧
        rebuilt.length = index.leaf.columns.length ∧
        (∀ f < index.leaf.columns.length, rebuilt[f]? =
          if some f ∈ composition.fieldPositions then leafRow[f]? else some .null) ∧
        (composition.coversTableRow →
          composition.indexRow? leafRow = some row ∧ composition.indexRow? rebuilt = some row) := by
  obtain ⟨row, hrow⟩ := h.exists_row hleaf.sound hchain
  obtain ⟨key, hkey⟩ := h.exists_keyValues hleaf.sound hnames hchain
  refine ⟨row, key, hrow, hkey, ?_⟩
  have hcopies := copies_of_chain hleaf.sound hchain hrow
  rw [← hchain.length]
  obtain ⟨hlength, hrebuilt⟩ := hcopies.tableRow_spec
  refine ⟨fun i f hposition => ?_,
    fun i p => getElem?_of_hkeyPosition? hleaf.sound hchain hrow hkey,
    fun ordinals recipe hrecipe => ⟨values_of_recipe hleaf.sound hchain hrow hkey hrecipe,
      fun p hp => exists_hkeyPosition?_of_recipe hleaf.sound hchain hrow hkey hrecipe hp⟩,
    hlength, fun f hf => ?_, fun hcovers => ?_⟩
  · -- the field that the index row has is one of the leaf's row
    have hfield := hcopies.field hposition
    obtain ⟨column, hcolumn, -⟩ := Composition.fieldPosition?_eq_some_iff.mp hposition
    obtain ⟨v, hv, -⟩ := exists_getElem?_of_forall₂ (mapM_eq_some_iff.mp hrow) hcolumn
    rw [hv] at hfield
    exact ⟨(List.getElem?_eq_some_iff.mp hfield.symm).1, hv.trans hfield⟩
  · rw [hrebuilt f, List.getElem?_replicate_of_lt hf]
  · exact ⟨hcopies.indexRow?_eq hcovers, hcopies.tableRow.indexRow?_eq hcovers⟩

/-- Lines by the amount of their sale hold the sale twice and the amount, which no line has.  The
sale of the line's own key is read from a field that is named for the sale of the sale's key, and
the price is lost.  Lines by their price hold all that a line has. -/
theorem composition_of_chain_samples :
    (∃ row key recipe, linesByAmount.allColumns.mapM (·.read sampleRows) = some row ∧
        linesByAmount.keyValues? sampleRows = some key ∧
        HKeyRecipe.ofIndex linesByAmount sampleOrdinals = .ok recipe ∧
        row[3]? = some (.int 77) ∧ key[6]? = some (.int 77) ∧
        (recipe.segments.flatMap (·.positions))[6]? = some 5 ∧
        (Composition.ofIndex linesByAmount).hkeyPosition? 5 = some 4 ∧ key[4]? = key[6]? ∧
        ((Composition.ofIndex linesByAmount).tableRow row 5)[1]? = some .null ∧
        ((Composition.ofIndex linesByAmount).tableRow row 5)[2]? = some (.int 77)) ∧
      ∃ row, linesByPrice.allColumns.mapM (·.read sampleRows) = some row ∧
        (Composition.ofIndex linesByPrice).indexRow?
          [.int 1, .int 250, .int 77, .int 3, .int 10] = some row ∧
        (Composition.ofIndex linesByPrice).indexRow?
          ((Composition.ofIndex linesByPrice).tableRow row 5) = some row := by
  constructor
  · have hchain : linesByAmount.leaf.Chain sampleRows := by decide
    obtain ⟨row, key, hrow, hkey, hfields, -, hrecipes, -, hrebuilt, -⟩ :=
      built_linesByAmount.composition_of_chain Table.declared_lines (by decide) hchain
    have hrecipe : HKeyRecipe.ofIndex linesByAmount sampleOrdinals =
        .ok ⟨linesByAmount.name, 6, [⟨1, [1, 2]⟩, ⟨2, [2, 1, 3]⟩, ⟨3, [4, 5]⟩]⟩ := by
      decide +kernel
    have hlength : key.length = 7 := by
      rw [← (mapM_eq_some_iff.mp hkey).length_eq]
      decide
    obtain ⟨i, q, hi, hq, -, hequal⟩ := (hrecipes _ _ hrecipe).2 6 (by omega)
    obtain rfl : 5 = i := Option.some.inj hi
    have hnamed : (Composition.ofIndex linesByAmount).hkeyPosition? 5 = some 4 := by decide
    obtain rfl : 4 = q := Option.some.inj (hnamed.symm.trans hq)
    have hsale : key[6]? = some (.int 77) := getElem?_of_mapM_eq_some (i := 6) hkey rfl
    exact ⟨row, key, _, hrow, hkey, hrecipe, (hfields 3 2 (by decide)).2, hsale, hi, hnamed, hequal,
      hrebuilt 1 (by decide), hrebuilt 2 (by decide)⟩
  · have hchain : linesByPrice.leaf.Chain sampleRows := by decide
    obtain ⟨row, -, hrow, -, -, -, -, -, -, hcovered⟩ :=
      built_linesByPrice.composition_of_chain Table.declared_lines (by decide) hchain
    obtain ⟨hmade, hmadeAgain⟩ := hcovered (by decide)
    exact ⟨row, hrow, hmade, hmadeAgain⟩

end Index

end TableGroups
