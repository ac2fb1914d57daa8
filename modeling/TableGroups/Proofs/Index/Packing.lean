import Mathlib.Tactic.SplitIfs
import TableGroups.Proofs.Index.Freezing

/-!
# Packed words

Id, validity and join side of an index are its *identity*.  They are packed into one word, and a
draft reads them back from a word.  A table index has no join side, so the two kinds use different
parts of a word: the lowest eighteen bits and the lowest seventeen.

Every word can be read, as the part of it that is taken for the id is small enough for one
(`unpack_eq`).  Reading and packing undo each other on words (`pack_of_word`, `word_of_pack`).  What
is left is that an identity passes through a definition unchanged.  Edits that have nothing to do
with the identity do not look at it (`tryEdits_identify`), and building looks at the kind of the
index only (`build_identify`).

* `IndexDraft.packed_roundTrip`: an index has the part of the last word that its draft was given,
  and a draft that is given the word of an index builds an index with the same identity.
-/

namespace TableGroups

/-! ### Bits of a word -/

/-- Packing what is read from a word gives the part of the word that counts. -/
theorem pack_of_word (word : Nat) :
    word % 0x10000 + (if word.testBit 16 then Index.validFlag else 0) = word &&& 0x1FFFF ∧
      word % 0x10000 + (if word.testBit 16 then Index.validFlag else 0) +
        (if word.testBit 17 then Index.rightJoinFlag else 0) = word &&& 0x3FFFF := by
  have hlow : word &&& 0x1FFFF = word % 0x20000 := Nat.and_two_pow_sub_one_eq_mod word 17
  have hall : word &&& 0x3FFFF = word % 0x40000 := Nat.and_two_pow_sub_one_eq_mod word 18
  rw [hlow, hall, Nat.testBit_eq_decide_div_mod_eq, Nat.testBit_eq_decide_div_mod_eq,
    Index.validFlag, Index.rightJoinFlag]
  simp only [decide_eq_true_eq, Nat.reducePow]
  constructor <;> split_ifs <;> omega

/-- Reading a packed word gives what was packed. -/
theorem word_of_pack {word id : Nat} {valid right : Bool} (hid : id < 0x10000)
    (hword : word = id + (if valid then Index.validFlag else 0) +
      (if right then Index.rightJoinFlag else 0)) :
    word % 0x10000 = id ∧ word.testBit 16 = valid ∧ word.testBit 17 = right := by
  rw [Index.validFlag, Index.rightJoinFlag] at hword
  rw [Nat.testBit_eq_decide_div_mod_eq, Nat.testBit_eq_decide_div_mod_eq]
  cases valid <;> cases right <;> simp only [if_true, Bool.false_eq_true, if_false] at hword <;>
    simp only [decide_eq_true_eq, decide_eq_false_iff_not, Nat.reducePow] <;> omega

/-! ### Identities -/

/-- Whether an edit is about id, validity or join side. -/
def DraftEdit.isIdentity : DraftEdit → Bool
  | .id _ | .packed _ | .valid _ => true
  | _ => false

/-- The index with another identity. -/
def Index.identify (index : Index) (id : Option IndexId) (valid : Bool) (span : IndexSpan) :
    Index :=
  { index with id, valid, span }

namespace IndexDraft

variable {draft edited : IndexDraft} {change : DraftEdit} {later : List DraftEdit} {index : Index}
  {id : Option IndexId} {valid : Bool} {span : IndexSpan} {word : Nat}

/-- The draft with another identity. -/
def identify (draft : IndexDraft) (id : Option IndexId) (valid : Bool) (span : IndexSpan) :
    IndexDraft :=
  { draft with id, valid, span }

@[simp] theorem freeze_identify :
    (draft.identify id valid span).freeze = draft.freeze.identify id valid span := by
  unfold freeze identify
  split <;> rfl

theorem addColumn_identify (column : IndexColumn) :
    (draft.identify id valid span).addColumn column =
      (draft.addColumn column).map (·.identify id valid span) := by
  unfold addColumn identify
  split <;> rfl

/-- Other edits do not look at the identity. -/
theorem edit_identify (h : change.isIdentity = false) :
    (draft.identify id valid span).edit change =
      (draft.edit change).map (·.identify id valid span) := by
  cases change with
  | columnNamed table column position direction =>
    rw [edit, edit, addColumnNamed, addColumnNamed]
    split
    · rfl
    · exact addColumn_identify _
  | column column => exact addColumn_identify column
  | treeName treeName => rfl
  | freeze => exact congrArg Except.ok freeze_identify
  | _ => cases h

theorem tryEdits_identify (h : ∀ change ∈ later, change.isIdentity = false) :
    (draft.identify id valid span).tryEdits later =
      (draft.tryEdits later).identify id valid span := by
  induction later generalizing draft with
  | nil => rfl
  | cons change rest ih =>
    rw [List.forall_mem_cons] at h
    have hfirst : (draft.identify id valid span).tryEdit change =
        (draft.tryEdit change).identify id valid span := by
      rw [tryEdit, tryEdit, edit_identify h.1]
      cases draft.edit change <;> rfl
    rw [tryEdits_cons, hfirst]
    exact ih h.2

/-- Other edits leave the identity alone. -/
theorem identify_tryEdits (h : ∀ change ∈ later, change.isIdentity = false) :
    (draft.tryEdits later).identify draft.id draft.valid draft.span = draft.tryEdits later :=
  (tryEdits_identify h).symm

/-! ### Building -/

theorem homeOf?_identify (hkind : span.kind = draft.span.kind) (column : IndexColumn) :
    (draft.identify id valid span).homeOf? column = draft.homeOf? column := by
  unfold homeOf? identify
  cases span <;> cases hspan : draft.span <;> simp_all [IndexSpan.kind]

theorem columnDepths_identify (hkind : span.kind = draft.span.kind)
    (earlier columns : List IndexColumn) :
    (draft.identify id valid span).columnDepths earlier columns =
      draft.columnDepths earlier columns := by
  induction columns generalizing earlier with
  | nil => rfl
  | cons column rest ih =>
    have hdepth : (draft.identify id valid span).columnDepth earlier column =
        draft.columnDepth earlier column := by
      rw [columnDepth, columnDepth, homeOf?_identify hkind]
      rfl
    rw [columnDepths, columnDepths, hdepth]
    simp only [ih]

/-- **Building** hands the identity on, and looks at the kind only. -/
theorem build_identify (hkind : span.kind = draft.span.kind) :
    (draft.identify id valid span).build = draft.build.map (·.identify id valid span) := by
  have hfreeze : span.kind = draft.freeze.span.kind := by rw [hkind, span_freeze]
  have hkeys : (draft.freeze.identify id valid span).keyColumns = draft.freeze.keyColumns := rfl
  rw [build, build]
  simp only [freeze_identify, columnDepths_identify hfreeze, hkeys, bind, Except.bind, pure,
    Except.pure, throw, throwThe, MonadExceptOf.throw]
  by_cases hempty : draft.freeze.keyColumns.isEmpty
  · rw [if_pos hempty, if_pos hempty]
    rfl
  rw [if_neg hempty, if_neg hempty]
  cases draft.freeze.columnDepths [] draft.freeze.keyColumns with
  | error e => rfl
  | ok depths =>
    -- completing looks at the name and the leaf, which are the same
    simp only [identify]
    cases complete draft.freeze.name
        (draft.freeze.leaf.lineage.drop (depths.foldl min draft.freeze.leaf.depth))
        draft.freeze.leaf.hkeyLayout.columns draft.freeze.keyColumns <;> rfl

/-- An index has the identity that its draft had before the edits that do not touch it. -/
theorem eq_identify_of_build (h : ∀ change ∈ later, change.isIdentity = false)
    (hbuild : (draft.tryEdits later).build = .ok index) :
    index = index.identify draft.id draft.valid draft.span := by
  have hsame : (draft.tryEdits later).identify draft.id draft.valid draft.span =
      draft.tryEdits later := identify_tryEdits h
  have hkind : draft.span.kind = (draft.tryEdits later).span.kind :=
    congrArg (fun written => written.span.kind) hsame
  have hown : ((draft.tryEdits later).identify draft.id draft.valid draft.span).build = _ :=
    build_identify hkind
  rw [hsame, hbuild] at hown
  exact Except.ok.inj hown

/-! ### Words of indexes -/

/-- Every word can be read. -/
theorem unpack_eq (draft : IndexDraft) (word : Nat) :
    draft.unpack word = .ok (draft.identify (some ⟨word % 0x10000, Nat.mod_lt _ (by decide)⟩)
      (word.testBit 16) (draft.span.withJoin (if word.testBit 17 then .right else .left))) := by
  have hid : word % 0x10000 < 0x10000 := Nat.mod_lt _ (by decide)
  rw [unpack, IndexId.ofNat?, dif_pos hid]
  rfl

/-- The word of an index with the identity read from a word is the part of the word that counts. -/
theorem packed?_of_unpack (hunpack : draft.unpack word = .ok edited)
    (hindex : index = index.identify edited.id edited.valid edited.span) :
    index.packed? = some (word &&& if index.isGroupIndex then 0x3FFFF else 0x1FFFF) := by
  obtain ⟨htable, hgroup⟩ := pack_of_word word
  obtain rfl := Except.ok.inj ((unpack_eq draft word).symm.trans hunpack)
  have hid := congrArg Index.id hindex
  have hvalid : index.valid = word.testBit 16 := congrArg Index.valid hindex
  have hspan : index.span = draft.span.withJoin (if word.testBit 17 then .right else .left) :=
    congrArg Index.span hindex
  rw [Index.packed?, hid, hvalid, Index.isGroupIndex, Index.kind, hspan]
  cases draft.span with
  | table => exact congrArg some htable
  | group join =>
    refine congrArg some (Eq.trans ?_ hgroup)
    cases word.testBit 17 <;> rfl

/-- Reading the word of an index gives the identity of the index. -/
theorem unpack_of_packed? (hword : index.packed? = some word)
    (hkind : draft.span.kind = index.kind) :
    draft.unpack word = .ok (draft.identify index.id index.valid index.span) := by
  obtain ⟨id, hid, hpacked⟩ := Option.map_eq_some_iff.mp hword
  have hsum : word = id.val + (if index.valid then Index.validFlag else 0) +
      (if decide (index.span.join? = some .right) then Index.rightJoinFlag else 0) := by
    simp only [decide_eq_true_eq]
    exact hpacked.symm
  obtain ⟨hlow, hvalid, hright⟩ := word_of_pack id.isLt hsum
  have hnumber : (⟨word % 0x10000, Nat.mod_lt _ (by decide)⟩ : IndexId) = id := Fin.ext hlow
  rw [unpack_eq, hnumber, hvalid, hright, hid]
  rw [Index.kind] at hkind
  cases hdraft : draft.span with
  | table =>
    cases hspan : index.span with
    | table => rfl
    | group side => rw [hdraft, hspan] at hkind; cases hkind
  | group join =>
    cases hspan : index.span with
    | table => rw [hdraft, hspan] at hkind; cases hkind
    | group side => cases side <;> rfl

/-- **Packed words.**  Every draft can be given any word.  If no later edit is about id, validity or
join side, then an index that is built in the end packs to the lowest eighteen bits of the word, if
it is a group index, and to the lowest seventeen otherwise.

An index with an id has a word, whichever way its draft came by its identity.  A draft of the same
kind that is given this word, and no other identity later, is built as it would be without the
word, and fails as it would fail, but the index has the id, validity and join side of the first
index, and so its word. -/
theorem packed_roundTrip :
    (∀ (draft : IndexDraft) (word : Nat), ∃ edited, draft.edit (.packed word) = .ok edited ∧
      ∀ later : List DraftEdit, (∀ change ∈ later, change.isIdentity = false) →
        ∀ index, (edited.tryEdits later).build = .ok index →
          index.packed? = some (word &&& if index.isGroupIndex then 0x3FFFF else 0x1FFFF)) ∧
    ∀ (index : Index) (id : IndexId), index.id = some id → ∃ word, index.packed? = some word ∧
      ∀ draft : IndexDraft, draft.span.kind = index.kind →
        ∃ edited, draft.edit (.packed word) = .ok edited ∧
          ∀ later : List DraftEdit, (∀ change ∈ later, change.isIdentity = false) →
            (edited.tryEdits later).build = (draft.tryEdits later).build.map
              (·.identify index.id index.valid index.span) ∧
            ∀ again, (edited.tryEdits later).build = .ok again →
              again.id = index.id ∧ again.isValid = index.isValid ∧ again.valid = index.valid ∧
                again.span.join? = index.span.join? ∧ again.packed? = index.packed? := by
  constructor
  · intro draft word
    refine ⟨_, unpack_eq draft word, fun later hlater index hbuild => ?_⟩
    exact packed?_of_unpack (unpack_eq draft word) (eq_identify_of_build hlater hbuild)
  · intro index id hid
    obtain ⟨word, hword⟩ : ∃ word, index.packed? = some word := by
      rw [Index.packed?, hid]
      exact ⟨_, rfl⟩
    refine ⟨word, hword, fun draft hkind =>
      ⟨_, unpack_of_packed? hword hkind, fun later hlater => ?_⟩⟩
    have hbuild : ((draft.identify index.id index.valid index.span).tryEdits later).build =
        (draft.tryEdits later).build.map (·.identify index.id index.valid index.span) := by
      rw [tryEdits_identify hlater]
      exact build_identify (by rw [← identify_tryEdits hlater]; exact hkind.symm)
    refine ⟨hbuild, fun again hagain => ?_⟩
    rw [hbuild, map_eq_ok_iff] at hagain
    obtain ⟨other, -, rfl⟩ := hagain
    exact ⟨rfl, rfl, rfl, rfl, rfl⟩

/-- An index over lines by the amount of their sale. -/
def linesBySaleAmount : Index :=
  { linesBySale with
    name := ⟨⟨"db", "lines"⟩, "by_amount"⟩
    span := .group .right
    treeName := "db.lines.by_amount"
    rootDepth := 1
    keyColumns := [⟨⟨"db", "sales"⟩, ⟨"amount", 1, .int, true⟩, 0, .desc⟩]
    allColumns :=
      [⟨⟨"db", "sales"⟩, ⟨"amount", 1, .int, true⟩, 0, .desc⟩,
        ⟨⟨"db", "sales"⟩, ⟨"shop", 3, .int, false⟩, 1, .asc⟩,
        ⟨⟨"db", "sales"⟩, ⟨"region", 2, .int, false⟩, 2, .asc⟩,
        ⟨⟨"db", "sales"⟩, ⟨"id", 0, .int, false⟩, 3, .asc⟩,
        ⟨⟨"db", "lines"⟩, ⟨"line", 0, .int, false⟩, 4, .asc⟩,
        ⟨⟨"db", "lines"⟩, ⟨"sale", 2, .int, false⟩, 5, .asc⟩] }

/-- A left group index turns into a right one by the word that it is given, whose highest bits are
ignored.  The word of an index over lines by price, which is not flagged as valid, is given to the
draft of another one. -/
theorem packed_roundTrip_samples :
    ((overBranch .lines "by_amount" .left).tryEdits
        [.packed 0xF0030007, .columnNamed .sales "amount" 0 .desc, .freeze]).build =
        .ok linesBySaleAmount ∧
      linesBySaleAmount.packed? = some 0x30007 ∧
      (latePrice.tryEdits [.packed 9]).build =
        .ok (linesByLatePrice.identify (some 9) false .table) ∧
      (linesByLatePrice.identify (some 9) false .table).packed? = some 9 := by
  have hbuild : ((overBranch .lines "by_amount" .left).tryEdits
      [.packed 0xF0030007, .columnNamed .sales "amount" 0 .desc, .freeze]).build =
        .ok linesBySaleAmount := by
    decide +kernel
  obtain ⟨hgiven, hagain⟩ := packed_roundTrip
  obtain ⟨edited, hedit, hpacked⟩ := hgiven (overBranch .lines "by_amount" .left) 0xF0030007
  obtain ⟨word, hword, hgives⟩ :=
    hagain { Index.linesByPrice with id := some 9, valid := false } 9 rfl
  obtain rfl : 9 = word := Option.some.inj hword
  obtain ⟨late, hlate, hbuilds⟩ := hgives latePrice rfl
  obtain ⟨hsame, hword⟩ := hbuilds [] (by simp)
  have hlater : (latePrice.tryEdits [.packed 9]).build =
      .ok (linesByLatePrice.identify (some 9) false .table) := by
    rw [tryEdits_cons, tryEdit_of_ok hlate, hsame]
    exact congrArg _ build_latePrice
  refine ⟨hbuild, ?_, hlater, ?_⟩
  · rw [tryEdits_cons, tryEdit_of_ok hedit] at hbuild
    exact hpacked [.columnNamed .sales "amount" 0 .desc, .freeze]
      (by simp [DraftEdit.isIdentity]) linesBySaleAmount hbuild
  · rw [tryEdits_cons, tryEdit_of_ok hlate] at hlater
    exact (hword _ hlater).2.2.2.2

end IndexDraft

end TableGroups
