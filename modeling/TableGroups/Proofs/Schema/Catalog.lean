import TableGroups.Proofs.Cursor.Conformance
import TableGroups.Proofs.Schema.Lookup
import TableGroups.Schema.Catalog

/-!
# What catalogs answer

A catalog publishes schemas one after the other, and whoever was handed one may go on using it.  All
of them share the catalog's cache, which keeps associations under the name of an index and a
generation, while an index may be dropped and defined anew under its name.  An answer belongs to the
schema that was asked all the same (`CatalogUsage.answers_asked_schema`).

A generation is published once: of the schemas that were handed out, two of one generation are the
same (`CatalogUsage.Coherent.unique`).  What is kept under a generation was therefore computed for
the one schema of this generation, and nothing is kept yet under the next one.
-/

namespace TableGroups

/-- What may happen to a catalog. -/
inductive CatalogStep where
  /-- An update that makes these changes or none. -/
  | update (changes : List SchemaChange)
  /-- The current schema is handed out. -/
  | snapshot
  /-- The catalog is asked for the association of an index. -/
  | association (name : IndexName)
  /-- The schema that was handed out at this place is asked for the association of an index. -/
  | associationIn (place : Nat) (name : IndexName)

/-- A catalog and the schemas that it has handed out. -/
structure CatalogUsage where
  catalog : Catalog
  /-- The schemas that were handed out, the first one first. -/
  snapshots : List Schema

namespace CatalogUsage

/-- A new catalog. -/
def start : CatalogUsage := ⟨.empty, []⟩

/-- The usage after one step.  An update hands out the schema that it publishes. -/
def step (usage : CatalogUsage) : CatalogStep → CatalogUsage
  | .update changes =>
    match (usage.catalog.update changes).2 with
    | .error _ => usage
    | .ok catalog => ⟨catalog, usage.snapshots ++ [catalog.current]⟩
  | .snapshot => { usage with snapshots := usage.snapshots ++ [usage.catalog.current] }
  | .association name => { usage with catalog := (usage.catalog.association name).2 }
  | .associationIn place name =>
    match usage.snapshots[place]? with
    | none => usage
    | some schema =>
      let cache := (schema.association usage.catalog.cache name).2
      { usage with catalog := { usage.catalog with cache } }

/-- The usage after steps made one after the other. -/
def run (usage : CatalogUsage) (steps : List CatalogStep) : CatalogUsage :=
  steps.foldl step usage

/-- The schemas in use: the current one and those that were handed out. -/
def schemas (usage : CatalogUsage) : List Schema :=
  usage.catalog.current :: usage.snapshots

/-- What a catalog and its readers rely on. -/
structure Coherent (usage : CatalogUsage) : Prop where
  names : ∀ schema ∈ usage.schemas, schema.RegistersByName
  generation_le : ∀ schema ∈ usage.schemas,
    schema.generation ≤ usage.catalog.current.generation
  /-- No two schemas have one generation. -/
  unique : ∀ schema ∈ usage.schemas, ∀ other ∈ usage.schemas,
    other.generation = schema.generation → other = schema
  /-- Nothing is kept for generations to come. -/
  kept_le {key : CacheKey} {kept : Association} :
    usage.catalog.cache.entries.find? key = some kept →
      key.generation ≤ usage.catalog.current.generation
  /-- What is kept for a generation was computed for its schema. -/
  faithful {schema : Schema} {name : IndexName} {kept : Association} :
    schema ∈ usage.schemas →
      usage.catalog.cache.entries.find? ⟨name, schema.generation⟩ = some kept →
        schema.associationAnew name = .ok kept

variable {usage : CatalogUsage}

theorem coherent_start : start.Coherent where
  names schema hmem := by
    obtain rfl := List.mem_singleton.mp hmem
    exact Schema.registersByName_empty 0
  generation_le schema hmem := by
    obtain rfl := List.mem_singleton.mp hmem
    exact Nat.le_refl _
  unique schema hmem other hother _ := by
    rw [List.mem_singleton.mp hmem, List.mem_singleton.mp hother]
  kept_le hkept := by cases hkept
  faithful _ hkept := by cases hkept

/-- Handing out the current schema is no news. -/
theorem Coherent.snapshot (h : usage.Coherent) :
    Coherent { usage with snapshots := usage.snapshots ++ [usage.catalog.current] } := by
  have hschemas : ∀ schema ∈ usage.catalog.current :: (usage.snapshots ++ [usage.catalog.current]),
      schema ∈ usage.schemas := by
    intro schema hmem
    simp only [List.mem_cons, List.mem_append, List.not_mem_nil, or_false] at hmem
    rw [schemas, List.mem_cons]
    tauto
  exact
    { names := fun schema hmem => h.names schema (hschemas schema hmem)
      generation_le := fun schema hmem => h.generation_le schema (hschemas schema hmem)
      unique := fun schema hmem other hother =>
        h.unique schema (hschemas schema hmem) other (hschemas other hother)
      kept_le := h.kept_le
      faithful := fun hmem => h.faithful (hschemas _ hmem) }

/-- A look-up keeps what it computes under the generation of the schema that is asked. -/
theorem Coherent.association (h : usage.Coherent) {asked : Schema} (hasked : asked ∈ usage.schemas)
    (name : IndexName) :
    Coherent { usage with catalog :=
      { usage.catalog with cache := (asked.association usage.catalog.cache name).2 } } where
  names := h.names
  generation_le := h.generation_le
  unique := h.unique
  kept_le hkept := by
    rcases Schema.find?_association (h.names asked hasked) hkept with hbefore | ⟨rfl, -⟩
    · exact h.kept_le hbefore
    · exact h.generation_le asked hasked
  faithful {schema other kept} hmem hkept := by
    rcases Schema.find?_association (h.names asked hasked) hkept with hbefore | ⟨hkey, hcomputed⟩
    · exact h.faithful hmem hbefore
    · simp only [CacheKey.mk.injEq] at hkey
      obtain ⟨rfl, hgeneration⟩ := hkey
      rwa [h.unique asked hasked schema hmem hgeneration]

/-- Nobody has seen the next generation yet, and nothing is kept for it. -/
theorem Coherent.publish (h : usage.Coherent) {draft : Schema} (hnames : draft.RegistersByName) :
    Coherent ⟨usage.catalog.publish draft, usage.snapshots⟩ := by
  have hlt : ∀ schema ∈ usage.snapshots,
      schema.generation < usage.catalog.current.generation + 1 := fun schema hmem =>
    Nat.lt_succ_of_le (h.generation_le schema (List.mem_cons_of_mem _ hmem))
  -- pruning retains what was kept for the next generation, and that is nothing
  have hempty : ∀ key, (usage.catalog.publish draft).cache.entries.find? key = none := by
    refine fun key => Option.eq_none_iff_forall_ne_some.mpr fun kept hkept => ?_
    obtain ⟨hbefore, hkey⟩ := AssociationCache.find?_retain.mp hkept
    have hle := h.kept_le hbefore
    omega
  exact
    { names := by
        rintro schema (_ | ⟨_, hmem⟩)
        · exact hnames
        · exact h.names schema (List.mem_cons_of_mem _ hmem)
      generation_le := by
        rintro schema (_ | ⟨_, hmem⟩)
        · exact Nat.le_refl _
        · exact Nat.le_of_lt (hlt schema hmem)
      unique := by
        rintro schema (_ | ⟨_, hmem⟩) other (_ | ⟨_, hother⟩) hgeneration
        · rfl
        · exact absurd hgeneration (Nat.ne_of_lt (hlt other hother))
        · exact absurd hgeneration.symm (Nat.ne_of_lt (hlt schema hmem))
        · exact h.unique schema (List.mem_cons_of_mem _ hmem) other
            (List.mem_cons_of_mem _ hother) hgeneration
      kept_le := by
        intro key kept hkept
        rw [hempty] at hkept
        cases hkept
      faithful := by
        intro schema name kept _ hkept
        rw [hempty] at hkept
        cases hkept }

theorem Coherent.step (h : usage.Coherent) (step : CatalogStep) : (usage.step step).Coherent := by
  cases step with
  | update changes =>
    simp only [CatalogUsage.step]
    split
    · exact h
    · next catalog hupdate =>
      obtain ⟨draft, hdraft, rfl⟩ := map_eq_ok_iff.mp hupdate
      have hnames := h.names _ List.mem_cons_self
      exact (h.publish (Schema.keptByChanges_registersByName.applyAll hnames hdraft)).snapshot
  | snapshot => exact h.snapshot
  | association name => exact h.association List.mem_cons_self name
  | associationIn place name =>
    simp only [CatalogUsage.step]
    split
    · exact h
    · next schema hplace =>
      exact h.association (List.mem_cons_of_mem _ (List.mem_of_getElem? hplace)) name

theorem Coherent.run (h : usage.Coherent) (steps : List CatalogStep) :
    (usage.run steps).Coherent := by
  induction steps generalizing usage with
  | nil => exact h
  | cons step rest ih => exact ih (h.step step)

/-- A schema that is in use answers for itself. -/
theorem Coherent.answers (h : usage.Coherent) {schema : Schema} (hmem : schema ∈ usage.schemas)
    (name : IndexName) :
    schema.Answers name (schema.association usage.catalog.cache name).1 := by
  rw [Schema.fst_association (h.names schema hmem) fun _ _ _ => h.faithful hmem]
  exact schema.answers_associationAnew name

/-- **Answers belong to the schema that was asked.**  Whatever happened to a catalog, updates that
failed and look-ups in schemas of the past included, it answers a look-up with the association of
the index that is registered under the name in the current schema, computed under the ordinals of
this schema, and each schema that it has handed out answers the look-up for itself.  A look-up fails
exactly if the index is unknown to the schema or its association cannot be computed. -/
theorem answers_asked_schema (steps : List CatalogStep) (name : IndexName) :
    let usage := start.run steps
    usage.catalog.current.Answers name (usage.catalog.association name).1 ∧
      ∀ schema ∈ usage.snapshots,
        schema.Answers name (schema.association usage.catalog.cache name).1 := by
  intro usage
  have h : usage.Coherent := coherent_start.run steps
  exact ⟨h.answers List.mem_cons_self name,
    fun schema hmem => h.answers (List.mem_cons_of_mem _ hmem) name⟩

/-- The index of the notes by their texts has a text and a number in its rows, and only a number
after it was defined anew.  Each of the two schemas answers for its own. -/
example :
    let usage := start.run
      [.update [.addGroup ⟨"notes", .writtenNotes, []⟩, .addIndex .notesByText],
        .association Index.notesByText.name,
        .update [.dropIndex Index.notesByText.name, .addIndex .notesByTextAnew]]
    (usage.snapshots.map fun schema =>
        (schema.association usage.catalog.cache Index.notesByText.name).1.map (·.recipe.rowWidth)) =
      [.ok 2, .ok 1] := by
  decide +kernel

end CatalogUsage

end TableGroups
