import TableGroups.Proofs.Schema.Ordinals

/-!
# Looking up associations

What a schema should answer when it is asked for the association of an index is what would be
computed if there were no cache (`associationAnew`).  It answers so if the cache keeps nothing else
under the index's name in the schema's generation (`fst_association`), and afterwards the cache
keeps what it kept before and what was computed just then (`find?_association`).
-/

namespace TableGroups.Schema

variable {schema : Schema} {name : IndexName} {association : Association}

/-- The association of a registered index, computed without a cache. -/
def associationAnew (schema : Schema) (name : IndexName) : Except Fault Association :=
  match schema.index? name with
  | none => .error (SchemaError.unknownIndex name).toFault
  | some index => (Association.compute index schema.ordinals).mapError IndexError.toFault

/-- The answer is about the schema: it is the association of the index that is registered under the
name, in the schema's generation, and there is none exactly if no index of the name is registered
or its association cannot be computed. -/
structure Answers (schema : Schema) (name : IndexName) (answer : Except Fault Association) :
    Prop where
  ok {association : Association} : answer = .ok association →
    ∃ index, schema.index? name = some index ∧
      Association.compute index schema.ordinals = .ok association ∧
        association.generation = schema.generation
  error : (∃ fault, answer = .error fault) ↔
    schema.index? name = none ∨
      ∃ index e, schema.index? name = some index ∧
        Association.compute index schema.ordinals = .error e

theorem associationAnew_eq_ok_iff :
    schema.associationAnew name = .ok association ↔
      ∃ index, schema.index? name = some index ∧
        Association.compute index schema.ordinals = .ok association := by
  unfold associationAnew
  cases schema.index? name with
  | none => simp
  | some index => simp [mapError_eq_ok_iff]

theorem answers_associationAnew (schema : Schema) (name : IndexName) :
    schema.Answers name (schema.associationAnew name) where
  ok h := by
    obtain ⟨index, hindex, hcomputed⟩ := associationAnew_eq_ok_iff.mp h
    have hgeneration := Association.generation_of_compute hcomputed
    exact ⟨index, hindex, hcomputed, hgeneration.trans schema.generation_ordinals⟩
  error := by
    unfold associationAnew
    cases schema.index? name with
    | none => simp
    | some index =>
      cases hcomputed : Association.compute index schema.ordinals <;>
        simp [Except.mapError, hcomputed]

/-! ### By way of a cache -/

variable {cache : AssociationCache}

/-- A look-up answers what would be computed, if that is what the cache keeps for a registered
index.  A name that is free is refused, whatever the cache keeps. -/
theorem fst_association (hnames : schema.RegistersByName)
    (h : ∀ index kept, schema.index? name = some index →
      cache.entries.find? ⟨name, schema.generation⟩ = some kept →
        schema.associationAnew name = .ok kept) :
    (schema.association cache name).1 = schema.associationAnew name := by
  unfold association associationAnew at *
  cases hindex : schema.index? name with
  | none => rfl
  | some index =>
    simp only [hindex] at h ⊢
    rw [AssociationCache.fst_get]
    intro kept hkept
    rw [hnames name index hindex, generation_ordinals] at hkept
    exact mapError_eq_ok_iff.mp (h index kept rfl hkept)

/-- What the cache keeps after a look-up it kept before, or it was computed for the look-up. -/
theorem find?_association (hnames : schema.RegistersByName) {key : CacheKey}
    (h : (schema.association cache name).2.entries.find? key = some association) :
    cache.entries.find? key = some association ∨
      key = ⟨name, schema.generation⟩ ∧ schema.associationAnew name = .ok association := by
  unfold Schema.association at h
  cases hindex : schema.index? name with
  | none =>
    simp only [hindex] at h
    exact .inl h
  | some index =>
    simp only [hindex] at h
    refine (AssociationCache.find?_get h).imp_right fun ⟨hkey, hcomputed⟩ => ?_
    rw [hnames name index hindex, generation_ordinals] at hkey
    exact ⟨hkey, associationAnew_eq_ok_iff.mpr ⟨index, hindex, hcomputed⟩⟩

/-- What is answered is kept. -/
theorem find?_association_self (hnames : schema.RegistersByName)
    (h : (schema.association cache name).1 = .ok association) :
    (schema.association cache name).2.entries.find? ⟨name, schema.generation⟩ =
      some association := by
  unfold Schema.association at h ⊢
  cases hindex : schema.index? name with
  | none => simp [hindex] at h
  | some index =>
    simp only [hindex] at h ⊢
    have hself := AssociationCache.find?_get_self (mapError_eq_ok_iff.mp h)
    rwa [hnames name index hindex, generation_ordinals] at hself

/-- What is kept stays. -/
theorem find?_association_of_find? {key : CacheKey}
    (h : cache.entries.find? key = some association) :
    (schema.association cache name).2.entries.find? key = some association := by
  unfold Schema.association
  cases schema.index? name with
  | none => exact h
  | some index => exact AssociationCache.find?_get_of_find? h

/-- What can be computed is answered, though maybe with something else. -/
theorem isOk_association (h : schema.associationAnew name = .ok association) :
    (schema.association cache name).1.isOk := by
  obtain ⟨index, hindex, hcomputed⟩ := associationAnew_eq_ok_iff.mp h
  simp only [Schema.association, hindex, isOk_mapError]
  exact AssociationCache.isOk_get hcomputed

end TableGroups.Schema
