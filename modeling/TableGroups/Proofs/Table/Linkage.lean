import TableGroups.Proofs.Table.Lineage

/-!
# Columns linked through grouping joins

Grouping joins link columns down a lineage: a column is linked to itself, and the child column of a
join pair to whatever the parent column of the pair is linked to (`Table.Linked`).  Along a chain of
rows all linked columns hold one value (`Linked.getElem?`).

`localEquivalent?` follows links, from the owner of a column down, and at every table it goes on
with the first column that it finds.  What it finds is linked (`linked_of_localEquivalent?`).  It
finds something wherever something is linked if there is nothing to choose from, and that is so as
long as no primary key on the way repeats a column (`Linked.unique`): then every join has one pair
for each column of the parent's key.  The key of the table's own parent may repeat columns, for the
last step may choose freely (`exists_localEquivalent?_of_linked`).

* `Declared.localEquivalent?_follows_links`: a column found is linked, and if no primary key of a
  table two or more levels up repeats a column, no column is linked where none is found.
* `charges_miss_link`: a repeated key column by which a link is missed.
-/

namespace TableGroups.Table

/-- A column of a table that is linked to the column `q` of `owner`: that column itself, or one that
a grouping join pairs with a linked column of the parent. -/
inductive Linked (owner : Table) (q : Nat) : Table → Nat → Prop where
  | own (hq : q < owner.columns.length) : Linked owner q owner q
  | joined {shape : TableShape} {parent : Table} {pairs : List JoinPair} {pair : JoinPair}
    (hparent : Linked owner q parent pair.parent) (hpair : pair ∈ pairs) :
    Linked owner q (.child shape parent pairs) pair.child

variable {owner table parent : Table} {shape : TableShape} {pairs : List JoinPair}
  {rows : TableName → List Value} {q p p' : Nat}

/-! ### Links -/

theorem Linked.mem_lineage (h : Linked owner q table p) : owner ∈ table.lineage := by
  induction h with
  | own _ => exact owner.mem_lineage_self
  | joined _ _ ih => exact List.mem_append_left _ ih

/-- A linked column is a column of its table. -/
theorem Linked.lt (h : Linked owner q table p) (hsound : table.Sound) :
    p < table.columns.length := by
  cases h with
  | own hq => exact hq
  | joined hparent hpair =>
    cases hsound with
    | child hshape hparent hchild hperm => exact hchild _ hpair

/-- **Linked columns agree.**  Along a chain of rows, a linked column holds the value of the column
that it is linked to. -/
theorem Linked.getElem? (h : Linked owner q table p) (hchain : table.Chain rows) :
    (rows table.name)[p]? = (rows owner.name)[q]? := by
  induction h with
  | own _ => rfl
  | joined _ hpair ih =>
    obtain ⟨habove, -, hjoin⟩ := hchain
    exact (hjoin _ hpair).trans (ih habove)

theorem ne_child_of_mem_lineage (h : owner ∈ parent.lineage) :
    owner ≠ .child shape parent pairs := by
  rintro rfl
  -- a table is not above itself
  have hdepth := depth_le_of_mem_lineage h
  exact absurd hdepth (Nat.not_succ_le_self _)

/-- In its own table a column is linked to itself alone. -/
theorem linked_self_iff : Linked owner q owner p ↔ p = q ∧ q < owner.columns.length := by
  constructor
  · intro h
    cases h with
    | own hq => exact ⟨rfl, hq⟩
    | joined hparent _ => exact absurd rfl (ne_child_of_mem_lineage hparent.mem_lineage)
  · rintro ⟨rfl, hq⟩
    exact .own hq

/-- Below its own table a column is linked through the pairs of the join. -/
theorem linked_child_iff (hne : owner ≠ .child shape parent pairs) :
    Linked owner q (.child shape parent pairs) p ↔
      ∃ pair ∈ pairs, Linked owner q parent pair.parent ∧ pair.child = p := by
  constructor
  · intro h
    cases h with
    | own _ => exact absurd rfl hne
    | joined hparent hpair => exact ⟨_, hpair, hparent, rfl⟩
  · rintro ⟨pair, hpair, hparent, rfl⟩
    exact .joined hparent hpair

/-! ### What is found is linked -/

/-- A table above another one has another name, if the names of the lineage are distinct. -/
theorem name_ne_of_mem_lineage_parent
    (hnames : ((Table.child shape parent pairs).lineage.map (·.name)).Nodup)
    (howner : owner ∈ parent.lineage) : owner.name ≠ shape.name := by
  rw [lineage, List.map_append, List.map_singleton, List.nodup_append] at hnames
  exact hnames.2.2 _ (List.mem_map_of_mem howner) _ (List.mem_singleton_self _)

theorem nodup_names_parent
    (hnames : ((Table.child shape parent pairs).lineage.map (·.name)).Nodup) :
    (parent.lineage.map (·.name)).Nodup :=
  hnames.sublist ((List.sublist_append_left _ _).map _)

/-- A table finds a column of its own where it is, and nothing else. -/
theorem linked_of_localEquivalent?_self (hsound : owner.Sound)
    (h : owner.localEquivalent? ⟨owner.name, q⟩ = some p) : Linked owner q owner p := by
  obtain ⟨rfl, hp⟩ := (hsound.localEquivalent?_own_eq_some_iff rfl).mp h
  exact .own hp

/-- **What a table finds for a column of its lineage is linked to it.** -/
theorem linked_of_localEquivalent? (hsound : table.Sound)
    (hnames : (table.lineage.map (·.name)).Nodup) (howner : owner ∈ table.lineage)
    (h : table.localEquivalent? ⟨owner.name, q⟩ = some p) : Linked owner q table p := by
  induction hsound generalizing p with
  | root hshape =>
    obtain rfl := List.mem_singleton.mp howner
    exact linked_of_localEquivalent?_self (.root hshape) h
  | @child shape parent pairs hshape hparent hchild hperm ih =>
    rcases List.mem_append.mp howner with habove | hself
    · have hname := name_ne_of_mem_lineage_parent hnames habove
      obtain ⟨k, hk, hpair⟩ := (localEquivalent?_child_eq_some_iff hname).mp h
      obtain ⟨pair, hfound, rfl⟩ := Option.map_eq_some_iff.mp hpair
      have hcolumn : pair.parent = k := by
        simpa using List.find?_some hfound
      have hlinked := ih (nodup_names_parent hnames) habove hk
      exact .joined (hcolumn ▸ hlinked) (List.mem_of_find?_eq_some hfound)
    · obtain rfl := List.mem_singleton.mp hself
      exact linked_of_localEquivalent?_self (.child hshape hparent hchild hperm) h

/-! ### What is linked is found -/

/-- The tables from `owner` down, as far as they are at least `levels` levels above `table`, do not
repeat a column in their primary keys. -/
def KeysDistinct (owner : Table) (levels : Nat) (table : Table) : Prop :=
  ∀ above ∈ table.lineage, owner.depth ≤ above.depth → above.depth + levels ≤ table.depth →
    above.primaryKey.Nodup

theorem keysDistinct_parent {levels : Nat}
    (h : KeysDistinct owner levels (.child shape parent pairs)) :
    KeysDistinct owner levels parent := by
  intro above habove howner hlevels
  exact h above (List.mem_append_left _ habove) howner (Nat.le_succ_of_le hlevels)

/-- What is two levels above a child is one level above its parent. -/
theorem keysDistinct_of_succ {levels : Nat}
    (h : KeysDistinct owner (levels + 1) (.child shape parent pairs)) :
    KeysDistinct owner levels parent := by
  intro above habove howner hlevels
  exact h above (List.mem_append_left _ habove) howner (Nat.succ_le_succ hlevels)

/-- **Links are unique** below keys that do not repeat a column. -/
theorem Linked.unique (hsound : table.Sound) (hkeys : KeysDistinct owner 1 table)
    (h : Linked owner q table p) (h' : Linked owner q table p') : p = p' := by
  induction h generalizing p' with
  | own _ => exact (linked_self_iff.mp h').1.symm
  | @joined shape parent pairs pair hparent hpair ih =>
    have habove := hparent.mem_lineage
    obtain ⟨pair', hpair', hparent', rfl⟩ :=
      (linked_child_iff (ne_child_of_mem_lineage habove)).mp h'
    cases hsound with
    | child hshape hsound hchild hperm =>
    -- the pairs are linked through one column of the parent, which only one pair names
    have hcolumn : pair.parent = pair'.parent := ih hsound (keysDistinct_parent hkeys) hparent'
    have hkey : parent.primaryKey.Nodup :=
      hkeys parent (List.mem_append_left _ parent.mem_lineage_self)
        (depth_le_of_mem_lineage habove) (Nat.le_refl _)
    have hpairs : (pairs.map (·.parent)).Nodup := hperm.nodup_iff.mpr hkey
    rw [List.inj_on_of_nodup_map hpairs hpair hpair' hcolumn]

/-- A table finds one of the linked columns, if the columns of its parent are uniquely linked. -/
theorem exists_localEquivalent?_of_linked (hsound : table.Sound)
    (hnames : (table.lineage.map (·.name)).Nodup) (hkeys : KeysDistinct owner 2 table)
    (h : Linked owner q table p) : ∃ k, table.localEquivalent? ⟨owner.name, q⟩ = some k := by
  induction h with
  | own hq => exact ⟨q, (hsound.localEquivalent?_own_eq_some_iff rfl).mpr ⟨rfl, hq⟩⟩
  | @joined shape parent pairs pair hparent hpair ih =>
    cases hsound with
    | child hshape hsound hchild hperm =>
    have habove := hparent.mem_lineage
    have hnames' := nodup_names_parent hnames
    obtain ⟨k, hk⟩ := ih hsound hnames' (keysDistinct_parent hkeys)
    -- the parent has no other linked column than the one that it finds
    have hlinked := linked_of_localEquivalent? hsound hnames' habove hk
    obtain rfl : k = pair.parent := hlinked.unique hsound (keysDistinct_of_succ hkeys) hparent
    have hfound : (pairs.find? (·.parent == pair.parent)).isSome := by
      rw [List.find?_isSome]
      exact ⟨pair, hpair, beq_self_eq_true _⟩
    obtain ⟨first, hfirst⟩ := Option.isSome_iff_exists.mp hfound
    refine ⟨first.child, ?_⟩
    rw [localEquivalent?_child_eq_some_iff (name_ne_of_mem_lineage_parent hnames habove)]
    exact ⟨pair.parent, hk, by rw [hfirst]; rfl⟩

/-- **Equivalent columns are linked columns.**  Take a declared table whose lineage has distinct
names, and a column of a table of this lineage.  If the table finds a column for it, that column is
linked to it, and so holds its value in every chain of rows.  If the table finds none, then none of
its columns is linked to it, provided that no table two or more levels above, from the column's own
table down, repeats a column in its primary key. -/
theorem Declared.localEquivalent?_follows_links (htable : table.Declared)
    (hnames : (table.lineage.map (·.name)).Nodup) (howner : owner ∈ table.lineage) :
    (∀ p, table.localEquivalent? ⟨owner.name, q⟩ = some p →
        p < table.columns.length ∧ Linked owner q table p ∧
          ∀ rows, table.Chain rows → (rows table.name)[p]? = (rows owner.name)[q]?) ∧
      (KeysDistinct owner 2 table → table.localEquivalent? ⟨owner.name, q⟩ = none →
        ∀ p, ¬ Linked owner q table p) := by
  refine ⟨fun p hp => ?_, fun hkeys hnone p hlinked => ?_⟩
  · have hlinked := linked_of_localEquivalent? htable.sound hnames howner hp
    exact ⟨hlinked.lt htable.sound, hlinked, fun rows hchain => hlinked.getElem? hchain⟩
  · obtain ⟨k, hk⟩ := exists_localEquivalent?_of_linked htable.sound hnames hkeys hlinked
    rw [hnone] at hk
    cases hk

/-- Lines hold the region of the shop in their last column, and the owner of the shop nowhere. -/
theorem localEquivalent?_follows_links_lines :
    lines.localEquivalent? ⟨shops.name, 0⟩ = some 4 ∧ Linked shops 0 lines 4 ∧
      lines.localEquivalent? ⟨shops.name, 2⟩ = none ∧ KeysDistinct shops 2 lines ∧
        ∀ p, ¬ Linked shops 2 lines p := by
  have hnames : (lines.lineage.map (·.name)).Nodup := by decide
  have howner : shops ∈ lines.lineage := by decide
  have hregion : lines.localEquivalent? ⟨shops.name, 0⟩ = some 4 := by decide
  have hshop : lines.localEquivalent? ⟨shops.name, 2⟩ = none := by decide
  have hkeys : KeysDistinct shops 2 lines := by
    unfold KeysDistinct
    decide
  have hlinked := (declared_lines.localEquivalent?_follows_links hnames howner).1 4 hregion
  exact ⟨hregion, hlinked.2.1, hshop, hkeys,
    (declared_lines.localEquivalent?_follows_links hnames howner).2 hkeys hshop⟩

/-! ### A key that repeats its column -/

/-- Accounts whose key names their number twice. -/
def accounts : Table :=
  .root ⟨⟨"db", "accounts"⟩, [⟨"number", 0, .int, false⟩], [0, 0]⟩

theorem declared_accounts : accounts.Declared := by
  have hresolve : TableDeclaration.resolve
      ⟨⟨"db", "accounts"⟩, [⟨"number", .int, false⟩], ["number", "number"], none⟩ =
        .ok accounts := rfl
  exact .resolved (by simp) hresolve

/-- Cards of an account, which join both of their columns to its number. -/
def cards : Table :=
  .child ⟨⟨"db", "cards"⟩, [⟨"account", 0, .int, false⟩, ⟨"payer", 1, .int, false⟩], [1]⟩ accounts
    [⟨0, 0⟩, ⟨1, 0⟩]

theorem declared_cards : cards.Declared := by
  have hresolve : TableDeclaration.resolve
      ⟨⟨"db", "cards"⟩, [⟨"account", .int, false⟩, ⟨"payer", .int, false⟩], ["payer"],
        some ⟨accounts, [("account", "number"), ("payer", "number")]⟩⟩ = .ok cards := rfl
  refine .resolved ?_ hresolve
  rintro grouping ⟨⟩
  exact declared_accounts

/-- Charges of a card, which join its second column. -/
def charges : Table :=
  .child ⟨⟨"db", "charges"⟩, [⟨"payer", 0, .int, false⟩, ⟨"amount", 1, .int, true⟩], [0]⟩ cards
    [⟨0, 1⟩]

theorem declared_charges : charges.Declared := by
  have hresolve : TableDeclaration.resolve
      ⟨⟨"db", "charges"⟩, [⟨"payer", .int, false⟩, ⟨"amount", .int, true⟩], ["payer"],
        some ⟨cards, [("payer", "payer")]⟩⟩ = .ok charges := rfl
  refine .resolved ?_ hresolve
  rintro grouping ⟨⟩
  exact declared_cards

/-- **A link may be missed.**  Cards repeat the number of their account in both columns, and charges
repeat the second one.  So the first column of the charges is linked to the number of the account,
but the cards find the number in their first column, and from there no pair leads on. -/
theorem charges_miss_link :
    charges.Declared ∧ (charges.lineage.map (·.name)).Nodup ∧ accounts ∈ charges.lineage ∧
      charges.localEquivalent? ⟨accounts.name, 0⟩ = none ∧ Linked accounts 0 charges 0 ∧
      ¬ ∀ (table owner : Table) (q : Nat), table.Declared →
        (table.lineage.map (·.name)).Nodup → owner ∈ table.lineage → q < owner.columns.length →
          table.localEquivalent? ⟨owner.name, q⟩ = none → ∀ p, ¬ Linked owner q table p := by
  have hnames : (charges.lineage.map (·.name)).Nodup := by decide
  have howner : accounts ∈ charges.lineage := by decide
  have hnone : charges.localEquivalent? ⟨accounts.name, 0⟩ = none := by decide
  have hnumber : Linked accounts 0 accounts 0 := .own (by decide)
  have hcard : JoinPair.mk 1 0 ∈ [JoinPair.mk 0 0, ⟨1, 0⟩] := by decide
  have hpayer : Linked accounts 0 cards 1 := .joined hnumber hcard
  have hlinked : Linked accounts 0 charges 0 := .joined hpayer (List.mem_singleton_self ⟨0, 1⟩)
  refine ⟨declared_charges, hnames, howner, hnone, hlinked, fun h => ?_⟩
  exact h charges accounts 0 declared_charges hnames howner (by decide) hnone 0 hlinked

end TableGroups.Table
