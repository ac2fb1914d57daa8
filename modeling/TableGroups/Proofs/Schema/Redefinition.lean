import TableGroups.Proofs.Cursor.Conformance
import TableGroups.Proofs.Schema.Lookup

/-!
# Indexes defined anew

Changing a schema does not move its generation, so a cache that outlives the change cannot tell two
definitions of an index apart: dropped, defined anew and looked up again, the index is answered with
the association of its first definition (`SchemaUsage.redefined_index_is_stale`).  A schema that a
catalog publishes is spared this by its new generation.

That is all that can go wrong.  What is kept under a name is the association of an index that was
found under this name when it was looked up, and it is still what would be computed for that index,
because new groups leave the ordinals that were given (`SchemaUsage.Coherent`).  So a schema answers
for itself as long as an index that is registered now is the one that the first answered look-up of
its name found (`SchemaUsage.answers_unless_redefined`).  A name that is free is refused, whatever
is kept under it.
-/

namespace TableGroups

/-- What may happen to a schema and a cache. -/
inductive SchemaStep where
  /-- The schema is changed, if the change succeeds. -/
  | change (change : SchemaChange)
  /-- The schema is asked for the association of an index. -/
  | association (name : IndexName)

/-- A look-up of an association. -/
structure Lookup where
  name : IndexName
  /-- The index that was registered under the name. -/
  found : Option Index
  answer : Except Fault Association

/-- A schema that is changed in place and asked through one cache. -/
structure SchemaUsage where
  schema : Schema
  cache : AssociationCache
  /-- The look-ups, the first one first. -/
  lookups : List Lookup

namespace SchemaUsage

/-- A schema of some generation in which nothing is registered, and a new cache. -/
def start (generation : Nat) : SchemaUsage :=
  ⟨⟨generation, .empty, .empty, .empty⟩, .empty, []⟩

/-- The usage after one step. -/
def step (usage : SchemaUsage) : SchemaStep → SchemaUsage
  | .change change =>
    match usage.schema.apply change with
    | .error _ => usage
    | .ok (_, schema) => { usage with schema }
  | .association name =>
    let (answer, cache) := usage.schema.association usage.cache name
    let lookup := ⟨name, usage.schema.index? name, answer⟩
    { usage with cache, lookups := usage.lookups ++ [lookup] }

/-- The usage after steps made one after the other. -/
def run (usage : SchemaUsage) (steps : List SchemaStep) : SchemaUsage :=
  steps.foldl step usage

/-- The first look-up of a name that was answered. -/
def firstAnswered? (usage : SchemaUsage) (name : IndexName) : Option Lookup :=
  usage.lookups.find? fun lookup => lookup.name == name && lookup.answer.isOk

/-- What is kept in the generation of the schema was computed for the index that the first answered
look-up found, and would be computed for it now. -/
structure Coherent (usage : SchemaUsage) : Prop where
  names : usage.schema.RegistersByName
  tables : usage.schema.RegistersTables
  kept {name : IndexName} {kept : Association} :
    usage.cache.entries.find? ⟨name, usage.schema.generation⟩ = some kept →
      ∃ first index, usage.firstAnswered? name = some first ∧ first.found = some index ∧
        Association.compute index usage.schema.ordinals = .ok kept
  answered {name : IndexName} {first : Lookup} : usage.firstAnswered? name = some first →
    ∃ kept, usage.cache.entries.find? ⟨name, usage.schema.generation⟩ = some kept

variable {usage : SchemaUsage}

theorem coherent_start (generation : Nat) : (start generation).Coherent where
  names := Schema.registersByName_empty generation
  tables := Schema.registersTables_empty generation
  kept h := by cases h
  answered h := by cases h

theorem Coherent.change (h : usage.Coherent) {change : SchemaChange} {dropped : Option Index}
    {changed : Schema} (hchange : usage.schema.apply change = .ok (dropped, changed)) :
    Coherent { usage with schema := changed } := by
  have hnames := Schema.keptByChanges_registersByName.apply h.names hchange
  obtain ⟨htables, hextends⟩ :=
    (Schema.keptByChanges_extends usage.schema).apply ⟨h.tables, .refl _⟩ hchange
  have hgeneration : changed.generation = usage.schema.generation :=
    (Schema.keptByChanges_generation _).apply rfl hchange
  refine ⟨hnames, htables, fun {name kept} hkept => ?_, fun {name first} hfirst => ?_⟩
  · rw [hgeneration] at hkept
    obtain ⟨first, index, hfirst, hfound, hcomputed⟩ := h.kept hkept
    exact ⟨first, index, hfirst, hfound, Association.compute_of_extends hextends hcomputed⟩
  · rw [hgeneration]
    exact h.answered hfirst

theorem firstAnswered?_association (usage : SchemaUsage) (asked name : IndexName) :
    (usage.step (.association asked)).firstAnswered? name =
      (usage.firstAnswered? name).or
        (if asked = name ∧ (usage.schema.association usage.cache asked).1.isOk then
          some ⟨asked, usage.schema.index? asked, (usage.schema.association usage.cache asked).1⟩
        else none) := by
  show (usage.lookups ++ [_]).find? _ = _
  rw [List.find?_append, List.find?_singleton]
  simp only [firstAnswered?, Bool.and_eq_true, beq_iff_eq]
  rfl

/-- What is kept after a look-up was kept before, or the look-up is the first of its name. -/
theorem Coherent.kept_association (h : usage.Coherent) {asked name : IndexName}
    {kept : Association}
    (hkept : (usage.schema.association usage.cache asked).2.entries.find?
      ⟨name, usage.schema.generation⟩ = some kept) :
    usage.cache.entries.find? ⟨name, usage.schema.generation⟩ = some kept ∨
      usage.firstAnswered? name = none ∧ asked = name ∧
        usage.schema.associationAnew name = .ok kept := by
  cases hbefore : usage.cache.entries.find? ⟨name, usage.schema.generation⟩ with
  | some before =>
    rw [Schema.find?_association_of_find? hbefore] at hkept
    exact .inl hkept
  | none =>
    rcases Schema.find?_association h.names hkept with hsome | ⟨hkey, hcomputed⟩
    · exact absurd (hbefore.symm.trans hsome) (by simp)
    · simp only [CacheKey.mk.injEq] at hkey
      obtain ⟨rfl, -⟩ := hkey
      refine .inr ⟨Option.eq_none_iff_forall_ne_some.mpr fun first hfirst => ?_, rfl, hcomputed⟩
      obtain ⟨before, hsome⟩ := h.answered hfirst
      exact absurd (hbefore.symm.trans hsome) (by simp)

theorem Coherent.association (h : usage.Coherent) (asked : IndexName) :
    (usage.step (.association asked)).Coherent := by
  refine ⟨h.names, h.tables, fun {name kept} hkept => ?_, fun {name first} hfirst => ?_⟩
  · rcases h.kept_association hkept with hbefore | ⟨hnone, rfl, hcomputed⟩
    · -- a later look-up of a name is not the first one that was answered
      obtain ⟨first, index, hfirst, hrest⟩ := h.kept hbefore
      refine ⟨first, index, ?_, hrest⟩
      rw [firstAnswered?_association, hfirst, Option.some_or]
    · obtain ⟨index, hindex, hanew⟩ := Schema.associationAnew_eq_ok_iff.mp hcomputed
      have hfirst := usage.firstAnswered?_association asked asked
      rw [hnone, Option.none_or, if_pos ⟨rfl, Schema.isOk_association hcomputed⟩] at hfirst
      exact ⟨_, index, hfirst, hindex, hanew⟩
  · -- the first look-up that was answered had kept its answer, or it is this one
    rw [firstAnswered?_association] at hfirst
    cases hbefore : usage.firstAnswered? name with
    | some before =>
      obtain ⟨kept, hkept⟩ := h.answered hbefore
      exact ⟨kept, Schema.find?_association_of_find? hkept⟩
    | none =>
      rw [hbefore, Option.none_or] at hfirst
      split at hfirst
      · next hasked =>
        obtain ⟨rfl, hok⟩ := hasked
        cases hanswer : (usage.schema.association usage.cache asked).1 with
        | error e => simp [hanswer, Except.isOk, Except.toBool] at hok
        | ok kept => exact ⟨kept, Schema.find?_association_self h.names hanswer⟩
      · cases hfirst

theorem Coherent.step (h : usage.Coherent) (step : SchemaStep) : (usage.step step).Coherent := by
  cases step with
  | association name => exact h.association name
  | change change =>
    simp only [SchemaUsage.step]
    split
    · exact h
    · next hchange => exact h.change hchange

theorem Coherent.run (h : usage.Coherent) (steps : List SchemaStep) :
    (usage.run steps).Coherent := by
  induction steps generalizing usage with
  | nil => exact h
  | cons step rest ih => exact ih (h.step step)

/-- What is kept is what would be computed for a registered index, if the first answered look-up of
its name found this index. -/
theorem Coherent.associationAnew_eq_ok (h : usage.Coherent) {name : IndexName} {index : Index}
    (hindex : usage.schema.index? name = some index)
    (hsame : ∀ first ∈ usage.firstAnswered? name, first.found = some index)
    {kept : Association}
    (hkept : usage.cache.entries.find? ⟨name, usage.schema.generation⟩ = some kept) :
    usage.schema.associationAnew name = .ok kept := by
  obtain ⟨first, found, hfirst, hfound, hcomputed⟩ := h.kept hkept
  have hregistered : index = found := Option.some.inj ((hsame first hfirst).symm.trans hfound)
  exact Schema.associationAnew_eq_ok_iff.mpr ⟨index, hindex, hregistered ▸ hcomputed⟩

/-- **A schema answers for itself unless an index was defined anew.**  Take a schema that is changed
in place and asked for associations through one cache, and let an index that is registered now be
the one that the first answered look-up of its name found, if there was such a look-up.  Then the
next look-up is answered with the association of this index under the ordinals that the schema has
now.  It is refused if no index of the name is registered now, be it that there was one before. -/
theorem answers_unless_redefined (generation : Nat) (steps : List SchemaStep) (name : IndexName)
    (hsame : ∀ first ∈ ((start generation).run steps).firstAnswered? name,
      ∀ index ∈ ((start generation).run steps).schema.index? name, first.found = some index) :
    let usage := (start generation).run steps
    usage.schema.Answers name (usage.schema.association usage.cache name).1 := by
  intro usage
  have h : usage.Coherent := (coherent_start generation).run steps
  rw [Schema.fst_association h.names fun index kept hindex =>
    h.associationAnew_eq_ok hindex fun first hfirst => hsame first hfirst index hindex]
  exact usage.schema.answers_associationAnew name

/-- A group of the written notes. -/
def notes : Group := ⟨"notes", .writtenNotes, []⟩

/-- The index of the notes by their texts gives way to another one of its name before it is found in
a look-up.  Afterwards a group is added, and the same index is dropped and registered again. -/
def redefinedInTime : List SchemaStep :=
  [.association Index.notesByText.name, .change (.addGroup notes),
    .change (.addIndex .notesByText), .change (.dropIndex Index.notesByText.name),
    .change (.addIndex .notesByTextAnew), .association Index.notesByText.name,
    .change (.addGroup ⟨"lines", .shops, [.sales, .lines]⟩),
    .change (.dropIndex Index.notesByText.name), .change (.addIndex .notesByTextAnew)]

/-- The answer is kept since the second look-up, and it is right.  It stays kept when the index is
dropped for good, and is not given any more. -/
theorem answers_unless_redefined_notes :
    let name := Index.notesByText.name
    let usage := (start 0).run redefinedInTime
    let dropped := (start 0).run (redefinedInTime ++ [.change (.dropIndex name)])
    (usage.schema.index? name = some .notesByTextAnew ∧
        (usage.schema.association usage.cache name).2.stats = ⟨1, 1, 1⟩ ∧
        usage.schema.Answers name (usage.schema.association usage.cache name).1) ∧
      (dropped.firstAnswered? name).isSome ∧ dropped.schema.index? name = none ∧
        dropped.schema.Answers name (dropped.schema.association dropped.cache name).1 := by
  intro name usage dropped
  have hsame : ∀ first ∈ usage.firstAnswered? name, ∀ index ∈ usage.schema.index? name,
      first.found = some index := by
    decide +kernel
  have hfree : ∀ first ∈ dropped.firstAnswered? name, ∀ index ∈ dropped.schema.index? name,
      first.found = some index := by
    decide +kernel
  exact ⟨⟨by decide +kernel, by decide +kernel,
      answers_unless_redefined 0 redefinedInTime name hsame⟩,
    by decide +kernel, by decide +kernel, answers_unless_redefined 0 _ name hfree⟩

/-- The index of the notes by their texts is looked up, and gives way to another one of its name. -/
def redefinedTooLate : List SchemaStep :=
  [.change (.addGroup notes), .change (.addIndex .notesByText),
    .association Index.notesByText.name, .change (.dropIndex Index.notesByText.name),
    .change (.addIndex .notesByTextAnew)]

/-- **An index that was defined anew is answered with its first definition.**  The notes are indexed
by their texts and the index is looked up.  Then it is dropped and another one is registered under
its name, which has only the numbers of the notes.  The next look-up still says that the rows of the
index have a text and a number. -/
theorem redefined_index_is_stale :
    let usage := (start 0).run redefinedTooLate
    (Index.notesByText.Built ∧ Index.notesByTextAnew.Built ∧ Table.writtenNotes.Declared) ∧
      usage.schema.index? Index.notesByText.name = some .notesByTextAnew ∧
      (∃ stale anew,
        (usage.schema.association usage.cache Index.notesByText.name).1 = .ok stale ∧
          Association.compute .notesByText usage.schema.ordinals = .ok stale ∧
          Association.compute .notesByTextAnew usage.schema.ordinals = .ok anew ∧
          stale.recipe.rowWidth = 2 ∧ anew.recipe.rowWidth = 1) ∧
      ¬ usage.schema.Answers Index.notesByText.name
        (usage.schema.association usage.cache Index.notesByText.name).1 := by
  intro usage
  let stale : Association :=
    ⟨0, Index.notesByText.allColumns, .ofIndex .notesByText,
      ⟨Index.notesByText.name, 2, [⟨1, [1]⟩]⟩⟩
  let anew : Association :=
    ⟨0, Index.notesByTextAnew.allColumns, .ofIndex .notesByTextAnew,
      ⟨Index.notesByText.name, 1, [⟨1, [0]⟩]⟩⟩
  have hregistered : usage.schema.index? Index.notesByText.name = some .notesByTextAnew := by
    decide +kernel
  have hanswer :
      (usage.schema.association usage.cache Index.notesByText.name).1 = .ok stale := by
    decide +kernel
  have hanew : Association.compute .notesByTextAnew usage.schema.ordinals = .ok anew := by
    decide +kernel
  refine ⟨⟨Index.built_notesByText, Index.built_notesByTextAnew, Table.declared_writtenNotes⟩,
    hregistered, ⟨stale, anew, hanswer, by decide +kernel, hanew, rfl, rfl⟩, fun h => ?_⟩
  -- the answer would be the association of the registered index, but it is wider
  obtain ⟨index, hindex, hcomputed, -⟩ := h.ok hanswer
  cases hregistered.symm.trans hindex
  have hequal : anew = stale := Except.ok.inj (hanew.symm.trans hcomputed)
  exact absurd (congrArg (fun association => association.recipe.rowWidth) hequal) (by decide)

end SchemaUsage

end TableGroups
