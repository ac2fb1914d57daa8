import TableGroups.Proofs.Group
import TableGroups.Proofs.Index.Build
import TableGroups.Proofs.Schema.Ordinals

/-!
# How the parts of a schema fit together

A schema keeps groups, tables and indexes in maps of their own.  A table is found in two of them,
under its name and in its group, and its number is worked out from the groups alone.

`Schema.Coherent` is what every change keeps of this, as long as the groups and indexes that are
added have been built (`SchemaChange.Formed`): the members of the registered groups are the
registered tables, and no two groups share one.  The rest follows.  Lineages lie within groups, so
they are registered; and since groups have no tables in common, no group overrides the numbers of
another (`Coherent.ordinal?_of_getElem?`).  `Schema.Consistent` says what a reader of the schema may
rely on (`Coherent.consistent`).
-/

namespace TableGroups

/-- What is added was built: a group table by table, an index from a draft over declared tables. -/
def SchemaChange.Formed : SchemaChange → Prop
  | .addGroup group => group.Formed
  | .addIndex index => index.Built ∧ index.leaf.Declared
  | .dropIndex _ => True
  | .indexColumn table _ _ => table.Declared

/-- An index over one column is built, and its leaf is the table of the column. -/
theorem built_of_indexOverColumn {table : Table} {name column : String} {index : Index}
    (h : indexOverColumn table name column = .ok index) : index.Built ∧ index.leaf = table := by
  obtain ⟨draft, hdraft, hbuild⟩ := bind_eq_ok_iff.mp h
  simp only [IndexDraft.addColumnNamed] at hdraft
  split at hdraft
  · cases hdraft
  cases hdraft
  refine ⟨⟨_, rfl, hbuild⟩, ?_⟩
  obtain ⟨_, -, -, hleaf, -⟩ := IndexDraft.build_spec hbuild
  exact hleaf

namespace Schema

variable {schema changed : Schema} {group other : Group} {table : Table} {index : Index}
  {key : String} {name : TableName} {i : Nat}

/-! ### What registering a group adds -/

theorem find?_foldl_insert_of_notMem {tables : List Table}
    {registered : SortedMap TableName Table} (h : name ∉ tables.map (·.name)) :
    (tables.foldl (fun acc table => acc.insert table.name table) registered).find? name =
      registered.find? name := by
  induction tables generalizing registered with
  | nil => rfl
  | cons first rest ih =>
    rw [List.map_cons, List.mem_cons, not_or] at h
    rw [List.foldl_cons, ih h.2]
    exact SortedMap.find?_insert_of_ne _ _ h.1

theorem find?_foldl_insert_of_mem {tables : List Table}
    {registered : SortedMap TableName Table} (hnames : (tables.map (·.name)).Nodup)
    (h : table ∈ tables) :
    (tables.foldl (fun acc table => acc.insert table.name table) registered).find? table.name =
      some table := by
  induction tables generalizing registered with
  | nil => cases h
  | cons first rest ih =>
    rw [List.map_cons, List.nodup_cons] at hnames
    rw [List.foldl_cons]
    rcases List.mem_cons.mp h with rfl | h
    · rw [find?_foldl_insert_of_notMem hnames.1]
      exact SortedMap.find?_insert_self _ _ _
    · exact ih hnames.2 h

theorem group?_of_addGroup (hadd : schema.addGroup group = .ok changed) :
    changed.group? key = some other ↔
      key = group.name ∧ other = group ∨ schema.group? key = some other := by
  obtain ⟨hnew, -, rfl⟩ := addGroup_eq_ok_iff.mp hadd
  rw [group?, SortedMap.find?_insert]
  by_cases hkey : key = group.name
  · rw [if_pos (by simp [hkey]), hkey, hnew]
    simp [eq_comm]
  · rw [if_neg fun heq => hkey (Std.LawfulEqCmp.eq_of_compare heq)]
    simp [hkey, group?]

theorem table?_of_addGroup (hformed : group.Formed) (hadd : schema.addGroup group = .ok changed) :
    changed.table? name = some table ↔
      table ∈ group.tables ∧ table.name = name ∨ schema.table? name = some table := by
  obtain ⟨-, hfree, rfl⟩ := addGroup_eq_ok_iff.mp hadd
  have hnames : (group.depthFirst.map (·.name)).Nodup :=
    (hformed.perm_depthFirst.map _).nodup_iff.mpr hformed.nodup_names
  have hmem {table : Table} : table ∈ group.depthFirst ↔ table ∈ group.tables :=
    hformed.mem_depthFirst_iff
  by_cases hname : name ∈ group.depthFirst.map (·.name)
  · -- the name was free, and now it is the name of a member
    obtain ⟨member, hmember, rfl⟩ := List.mem_map.mp hname
    rw [table?, find?_foldl_insert_of_mem hnames hmember, hfree member hmember]
    simp only [Option.some.injEq, reduceCtorEq, or_false]
    refine ⟨?_, fun h => hformed.eq_of_name_eq (hmem.mp hmember) h.1 h.2.symm⟩
    rintro rfl
    exact ⟨hmem.mp hmember, rfl⟩
  · rw [table?, find?_foldl_insert_of_notMem hname]
    refine ⟨.inr, fun h => h.resolve_left ?_⟩
    rintro ⟨htable, rfl⟩
    exact hname (List.mem_map_of_mem (hmem.mpr htable))

/-! ### What every change keeps -/

/-- The maps of a schema tell the same story. -/
structure Coherent (schema : Schema) : Prop where
  groups {key : String} {group : Group} :
    schema.group? key = some group → group.name = key ∧ group.Formed
  members {key : String} {group : Group} {table : Table} :
    schema.group? key = some group → table ∈ group.tables → schema.table? table.name = some table
  /-- A registered table has a group. -/
  home {name : TableName} {table : Table} : schema.table? name = some table →
    table.name = name ∧ ∃ key group, schema.group? key = some group ∧ table ∈ group.tables
  /-- No two groups share a table. -/
  apart {key key' : String} {group group' : Group} {table : Table} :
    schema.group? key = some group → schema.group? key' = some group' →
      table ∈ group.tables → table ∈ group'.tables → key = key'
  indexes {name : IndexName} {index : Index} :
    schema.index? name = some index → index.Built ∧ index.leaf.Declared
  branches {name : IndexName} {index : Index} {table : Table} :
    schema.index? name = some index → table ∈ index.branch → (schema.table? table.name).isSome

theorem coherent_empty (generation : Nat) : Coherent ⟨generation, .empty, .empty, .empty⟩ where
  groups h := by cases h
  members h := by cases h
  home h := by cases h
  apart h := by cases h
  indexes h := by cases h
  branches h := by cases h

/-- Coherence is not about the generation. -/
theorem Coherent.withGeneration (h : schema.Coherent) (generation : Nat) :
    Coherent { schema with generation } :=
  ⟨h.groups, h.members, h.home, h.apart, h.indexes, h.branches⟩

theorem Coherent.addGroup (h : schema.Coherent) (hformed : group.Formed)
    (hadd : schema.addGroup group = .ok changed) : changed.Coherent := by
  have hgroup {key : String} {other : Group} : changed.group? key = some other ↔
      key = group.name ∧ other = group ∨ schema.group? key = some other :=
    group?_of_addGroup hadd
  have htable {name : TableName} {table : Table} : changed.table? name = some table ↔
      table ∈ group.tables ∧ table.name = name ∨ schema.table? name = some table :=
    table?_of_addGroup hformed hadd
  obtain ⟨-, hfree, hchanged⟩ := addGroup_eq_ok_iff.mp hadd
  have hindex : changed.indexes = schema.indexes := by rw [hchanged]
  -- a table of the new group was not registered, so it is in no other group
  have hnew {key : String} {other : Group} {table : Table} (hother : schema.group? key = some other)
      (hmem : table ∈ group.tables) (hmem' : table ∈ other.tables) : False := by
    have hregistered := h.members hother hmem'
    rw [hfree table (hformed.mem_depthFirst_iff.mpr hmem)] at hregistered
    cases hregistered
  constructor
  case groups =>
    intro key other hother
    rcases hgroup.mp hother with ⟨rfl, rfl⟩ | hother
    · exact ⟨rfl, hformed⟩
    · exact h.groups hother
  case members =>
    intro key other table hother hmem
    rcases hgroup.mp hother with ⟨rfl, rfl⟩ | hother
    · exact htable.mpr (.inl ⟨hmem, rfl⟩)
    · exact htable.mpr (.inr (h.members hother hmem))
  case home =>
    intro name table hregistered
    rcases htable.mp hregistered with ⟨hmem, hname⟩ | hregistered
    · exact ⟨hname, group.name, group, hgroup.mpr (.inl ⟨rfl, rfl⟩), hmem⟩
    · obtain ⟨hname, key, other, hother, hmem⟩ := h.home hregistered
      exact ⟨hname, key, other, hgroup.mpr (.inr hother), hmem⟩
  case apart =>
    intro key key' first second table hfirst hsecond hmem hmem'
    rcases hgroup.mp hfirst with ⟨rfl, rfl⟩ | hfirst <;>
      rcases hgroup.mp hsecond with ⟨rfl, rfl⟩ | hsecond
    · rfl
    · exact (hnew hsecond hmem hmem').elim
    · exact (hnew hfirst hmem' hmem).elim
    · exact h.apart hfirst hsecond hmem hmem'
  case indexes =>
    intro name index hregistered
    rw [index?, hindex] at hregistered
    exact h.indexes hregistered
  case branches =>
    intro name index table hregistered hbranch
    rw [index?, hindex] at hregistered
    obtain ⟨known, hknown⟩ := Option.isSome_iff_exists.mp (h.branches hregistered hbranch)
    exact Option.isSome_iff_exists.mpr ⟨known, htable.mpr (.inr hknown)⟩

theorem Coherent.addIndex (h : schema.Coherent) (hbuilt : index.Built)
    (hdeclared : index.leaf.Declared) (hadd : schema.addIndex index = .ok changed) :
    changed.Coherent := by
  obtain ⟨-, hbranch, rfl⟩ := addIndex_eq_ok_iff.mp hadd
  have hindex {name : IndexName} {found : Index}
      (hfound : (schema.indexes.insert index.name index).find? name = some found) :
      found = index ∨ schema.index? name = some found := by
    rw [SortedMap.find?_insert] at hfound
    split at hfound
    · exact .inl (Option.some.inj hfound).symm
    · exact .inr hfound
  refine ⟨h.groups, h.members, h.home, h.apart, fun {name found} hfound => ?_,
    fun {name found table} hfound hmem => ?_⟩
  · rcases hindex hfound with rfl | hfound
    · exact ⟨hbuilt, hdeclared⟩
    · exact h.indexes hfound
  · rcases hindex hfound with rfl | hfound
    · exact hbranch table hmem
    · exact h.branches hfound hmem

theorem Coherent.dropIndex (h : schema.Coherent) {name : IndexName}
    (hdrop : schema.dropIndex name = .ok (index, changed)) : changed.Coherent := by
  obtain ⟨-, rfl⟩ := dropIndex_eq_ok_iff.mp hdrop
  have hindex {other : IndexName} {found : Index}
      (hfound : (schema.indexes.erase name).find? other = some found) :
      schema.index? other = some found := by
    rw [SortedMap.find?_erase] at hfound
    split at hfound
    · cases hfound
    · exact hfound
  exact ⟨h.groups, h.members, h.home, h.apart, fun hfound => h.indexes (hindex hfound),
    fun hfound => h.branches (hindex hfound)⟩

/-- **Changes keep schemas coherent.** -/
theorem Coherent.apply (h : schema.Coherent) {change : SchemaChange} (hformed : change.Formed)
    {dropped : Option Index} (happly : schema.apply change = .ok (dropped, changed)) :
    changed.Coherent := by
  cases change with
  | addGroup group =>
    obtain ⟨made, hadd, heq⟩ := map_eq_ok_iff.mp happly
    cases heq
    exact h.addGroup hformed hadd
  | addIndex index =>
    obtain ⟨made, hadd, heq⟩ := map_eq_ok_iff.mp happly
    cases heq
    exact h.addIndex hformed.1 hformed.2 hadd
  | dropIndex name =>
    obtain ⟨⟨index, made⟩, hdrop, heq⟩ := map_eq_ok_iff.mp happly
    cases heq
    exact h.dropIndex hdrop
  | indexColumn table name column =>
    obtain ⟨index, hindex, hrest⟩ := bind_eq_ok_iff.mp happly
    obtain ⟨made, hadd, heq⟩ := bind_eq_ok_iff.mp hrest
    cases heq
    obtain ⟨hbuilt, rfl⟩ := built_of_indexOverColumn (mapError_eq_ok_iff.mp hindex)
    exact h.addIndex hbuilt hformed hadd

theorem Coherent.applyAll (h : schema.Coherent) {changes : List SchemaChange}
    (hformed : ∀ change ∈ changes, change.Formed)
    (happly : (schema.applyAll changes).2 = .ok changed) : changed.Coherent := by
  induction changes generalizing schema with
  | nil =>
    cases happly
    exact h
  | cons change rest ih =>
    rw [List.forall_mem_cons] at hformed
    rw [Schema.applyAll] at happly
    cases hstep : schema.apply change with
    | error e => simp [hstep] at happly
    | ok step =>
      simp only [hstep] at happly
      exact ih (h.apply hformed.1 hstep) hformed.2 happly

/-! ### Lineages and numbers -/

/-- Tables are registered with all that they hang from. -/
theorem Coherent.table?_of_mem_lineage (h : schema.Coherent) {above : Table}
    (htable : schema.table? name = some table) (habove : above ∈ table.lineage) :
    schema.table? above.name = some above := by
  obtain ⟨-, key, group, hgroup, hmem⟩ := h.home htable
  exact h.members hgroup ((h.groups hgroup).2.mem_of_mem_lineage hmem habove)

/-- The tables of a lineage that is registered have distinct names. -/
theorem Coherent.nodup_names_lineage (h : schema.Coherent)
    (htable : schema.table? name = some table) : (table.lineage.map (·.name)).Nodup := by
  refine table.nodup_lineage.map_on fun first hfirst second hsecond hname => ?_
  have heq := h.table?_of_mem_lineage htable hfirst
  rw [hname, h.table?_of_mem_lineage htable hsecond] at heq
  exact (Option.some.inj heq).symm

theorem Coherent.registersTables (h : schema.Coherent) : schema.RegistersTables := by
  intro key group hgroup name hname
  obtain ⟨table, htable, rfl⟩ := List.mem_map.mp hname
  rw [h.members hgroup ((h.groups hgroup).2.mem_depthFirst_iff.mp htable)]
  rfl

/-- **A table has the number of its place in its group.** -/
theorem Coherent.ordinal?_of_getElem? (h : schema.Coherent)
    (hgroup : schema.group? key = some group) (hi : group.depthFirst[i]? = some table) :
    schema.ordinals.ordinal? table.name = some (1 + i) := by
  have hformed := (h.groups hgroup).2
  have hnames : group.names.Nodup :=
    (hformed.perm_depthFirst.map _).nodup_iff.mpr hformed.nodup_names
  have hkeys : (schema.groups.values.map (·.name)).Nodup :=
    SortedMap.nodup_map_values fun _ _ hfound => (h.groups hfound).1
  obtain ⟨front, back, hvalues⟩ := List.append_of_mem (SortedMap.mem_values_iff.mpr ⟨key, hgroup⟩)
  rw [hvalues, List.map_append, List.map_cons] at hkeys
  rw [ordinals, hvalues]
  refine Ordinals.ordinal?_ofGroups_of_getElem? hnames (fun later hlater hname => ?_) hi
  -- a later group with a table of this name would share the table itself
  obtain ⟨key', hkey'⟩ := SortedMap.mem_values_iff.mp
    (hvalues ▸ List.mem_append_right _ (List.mem_cons_of_mem _ hlater))
  obtain ⟨twin, htwin, hname⟩ := List.mem_map.mp hname
  have hmem := hformed.mem_depthFirst_iff.mp (List.mem_of_getElem? hi)
  have hmem' := (h.groups hkey').2.mem_depthFirst_iff.mp htwin
  have hsame := h.members hkey' hmem'
  rw [hname, h.members hgroup hmem] at hsame
  cases hsame
  have hkey := h.apart hgroup hkey' hmem hmem'
  have hlast := (List.nodup_cons.mp (List.nodup_append.mp hkeys).2.1).1
  refine hlast (List.mem_map.mpr ⟨later, hlater, ?_⟩)
  rw [(h.groups hkey').1, (h.groups hgroup).1, hkey]

theorem Coherent.isSome_ordinal?_iff (h : schema.Coherent) :
    (schema.ordinals.ordinal? name).isSome ↔ (schema.table? name).isSome := by
  constructor
  · intro hnumber
    obtain ⟨number, hnumber⟩ := Option.isSome_iff_exists.mp hnumber
    exact h.registersTables.isSome_of_ordinal? hnumber
  · intro hregistered
    obtain ⟨table, htable⟩ := Option.isSome_iff_exists.mp hregistered
    obtain ⟨rfl, key, group, hgroup, hmem⟩ := h.home htable
    obtain ⟨i, hi⟩ := List.mem_iff_getElem?.mp ((h.groups hgroup).2.mem_depthFirst_iff.mpr hmem)
    rw [h.ordinal?_of_getElem? hgroup hi]
    rfl

/-! ### What readers rely on -/

/-- What the groups, tables, indexes and numbers of a schema owe to each other. -/
structure Consistent (schema : Schema) : Prop where
  /-- A table is registered under its name and is a member of exactly one registered group. -/
  home {name : TableName} {table : Table} : schema.table? name = some table →
    table.name = name ∧ ∃! key, ∃ group, schema.group? key = some group ∧ table ∈ group.tables
  /-- The members of registered groups are registered. -/
  members {key : String} {group : Group} {table : Table} :
    schema.group? key = some group → table ∈ group.tables → schema.table? table.name = some table
  /-- The tables that a registered table hangs from are registered. -/
  lineage {name : TableName} {table above : Table} : schema.table? name = some table →
    above ∈ table.lineage → schema.table? above.name = some above
  /-- The tables of the branches of registered indexes are known by name. -/
  branches {name : IndexName} {index : Index} {table : Table} :
    schema.index? name = some index → table ∈ index.branch → (schema.table? table.name).isSome
  /-- The tables that have a number are the registered ones. -/
  numbered {name : TableName} :
    (schema.ordinals.ordinal? name).isSome ↔ (schema.table? name).isSome
  /-- The traversal of a registered group lists its tables once, and they are numbered from one in
  this order. -/
  numbers {key : String} {group : Group} : schema.group? key = some group →
    group.depthFirst.Perm group.tables ∧ (group.tables.map (·.name)).Nodup ∧
      group.depthFirst.map (fun table => schema.ordinals.ordinal? table.name) =
        (List.range' 1 group.tables.length).map some

theorem Coherent.consistent (h : schema.Coherent) : schema.Consistent where
  home {name table} htable := by
    obtain ⟨hname, key, group, hgroup, hmem⟩ := h.home htable
    refine ⟨hname, key, ⟨group, hgroup, hmem⟩, ?_⟩
    rintro key' ⟨group', hgroup', hmem'⟩
    exact h.apart hgroup' hgroup hmem' hmem
  members := h.members
  lineage := h.table?_of_mem_lineage
  branches := h.branches
  numbered := h.isSome_ordinal?_iff
  numbers {key group} hgroup := by
    have hformed := (h.groups hgroup).2
    refine ⟨hformed.perm_depthFirst, hformed.nodup_names, ?_⟩
    rw [← hformed.perm_depthFirst.length_eq]
    refine List.ext_getElem (by simp) fun i hi hi' => ?_
    rw [List.length_map] at hi
    rw [List.getElem_map, List.getElem_map, List.getElem_range', Nat.one_mul]
    exact h.ordinal?_of_getElem? hgroup (List.getElem?_eq_getElem hi)

end Schema

end TableGroups
