import TableGroups.Proofs.Cursor.Simulation

/-!
# Cursors that do as another one does

What a cursor does is seen through its calls alone, so one cursor may stand in for another that has
more to it.  A map of cursors mirrors them (`Cursor.Mirrors`) if it does not matter whether a call
is made before or after it.  Whoever reads from cursors does not see whether they are mirrored:
mapping the inputs of an intersection mirrors the intersection (`Intersection.mirrors`).

A mirror is a simulation that leaves no leeway (`Cursor.mirrors_iff`), so nothing has to be said
here of how an intersection goes through its inputs.
-/

namespace TableGroups

/-- The call that leaves what a map makes of the cursor. -/
def Call.map {γ δ α : Type} (f : γ → δ) (call : Call γ α) : Call δ α :=
  ⟨call.result, f call.cursor, call.events⟩

/-- It does not matter whether a call is made before or after the map. -/
structure Cursor.Mirrors {γ δ : Type} [Cursor γ] [Cursor δ] (f : γ → δ) : Prop where
  state (c : γ) : Cursor.state (f c) = Cursor.state c
  openOn (stores : Stores) (context : QueryContext) (c : γ) :
    Cursor.openOn stores context (f c) = (Cursor.openOn stores context c).map f
  advance (context : QueryContext) (c : γ) :
    Cursor.advance context (f c) = (Cursor.advance context c).map f
  close (c : γ) : Cursor.close (f c) = (f (Cursor.close c).1, (Cursor.close c).2)

namespace Cursor.Mirrors

variable {γ δ ε : Type} [Cursor γ] [Cursor δ] [Cursor ε] {f : γ → δ} {g : δ → ε}

theorem perform (h : Mirrors f) (stores : Stores) (context : QueryContext) (c : γ)
    (call : CursorCall) :
    Cursor.perform stores context (f c) call = (Cursor.perform stores context c call).map f := by
  cases call with
  | openOn =>
    simp only [Cursor.perform, h.openOn]
    rfl
  | advance =>
    simp only [Cursor.perform, h.advance]
    rfl
  | close =>
    simp only [Cursor.perform, h.close]
    rfl

theorem comp (hg : Mirrors g) (hf : Mirrors f) : Mirrors (g ∘ f) where
  state c := (hg.state (f c)).trans (hf.state c)
  openOn stores context c := by
    rw [Function.comp_apply, hg.openOn, hf.openOn]
    rfl
  advance context c := by
    rw [Function.comp_apply, hg.advance, hf.advance]
    rfl
  close c := by
    rw [Function.comp_apply, hg.close, hf.close]
    rfl

end Cursor.Mirrors

/-! ### Mirrors as simulations -/

/-- Nothing may differ. -/
def Leeway.none : Leeway where
  contexts := Eq
  records := Eq
  recorded := Eq
  reports := Eq
  lenient := False
  interruption_eq := by rintro _ _ rfl; rfl
  records_of_contexts := by rintro _ _ rfl; rfl
  checks_of_contexts := by rintro _ _ rfl; exact .inl rfl
  recorded_of_records := id
  reports_nil := rfl
  reports_append := by rintro _ _ _ _ rfl rfl; rfl
  reports_if := by rintro _ _ _ rfl; rfl

namespace Leeway

theorem checks_none_iff {check check' : Bool} :
    Leeway.none.Checks check check' ↔ check' = check := by
  simp [Checks, none]

theorem lifecycles_none_iff {lifecycle lifecycle' : Lifecycle} :
    Leeway.none.Lifecycles lifecycle lifecycle' ↔ lifecycle' = lifecycle := by
  constructor
  · rintro ⟨hstate, -, hrecorded⟩
    cases lifecycle
    cases lifecycle'
    exact congrArg₂ Lifecycle.mk hstate (Eq.symm hrecorded)
  · rintro rfl
    exact .refl fun _ => rfl

theorem agree_none_iff {γ δ α : Type} {f : γ → δ} {call : Call γ α} {call' : Call δ α} :
    Leeway.none.Agree (fun c c' => c' = f c) call call' ↔ call' = call.map f := by
  constructor
  · rintro ⟨hresult, hcursor, hreports⟩
    obtain ⟨result', cursor', events'⟩ := call'
    have hevents : call.events = events' := hreports
    simp_all [Call.map]
  · rintro rfl
    exact ⟨rfl, rfl, rfl⟩

end Leeway

/-- To mirror a cursor is to do exactly the same. -/
theorem Cursor.mirrors_iff {γ δ : Type} [Cursor γ] [Cursor δ] {f : γ → δ} :
    Cursor.Mirrors f ↔ Cursor.Simulates .none fun c c' => c' = f c := by
  constructor
  · intro h
    refine ⟨?_, ?_, ?_, ?_⟩
    · rintro c _ rfl
      exact h.state c
    · rintro stores context _ c _ rfl rfl
      exact Leeway.agree_none_iff.mpr (h.openOn stores context c)
    · rintro context _ c _ rfl rfl
      exact .inr (Leeway.agree_none_iff.mpr (h.advance context c))
    · rintro c _ rfl
      rw [h.close]
      exact ⟨rfl, rfl⟩
  · intro h
    refine ⟨fun c => h.state_eq rfl, fun stores context c => ?_, fun context c => ?_, fun c => ?_⟩
    · exact Leeway.agree_none_iff.mp (h.openOn stores rfl rfl)
    · exact Leeway.agree_none_iff.mp ((h.advance rfl rfl).resolve_left And.left)
    · obtain ⟨hclosed, hreports⟩ := h.close (c := c) rfl
      exact Prod.ext hclosed (Eq.symm hreports)

namespace Input

variable {γ δ : Type} {f : γ → δ}

/-- The input with its cursor mapped. -/
def map (f : γ → δ) (input : Input γ) : Input δ :=
  ⟨f input.cursor, input.rowType, input.offset, input.lookahead, input.exhausted, input.last⟩

theorem alike_iff {input : Input γ} {input' : Input δ} :
    Alike (fun c c' => c' = f c) input input' ↔ input' = input.map f := by
  constructor
  · rintro ⟨hcursor, hrowType, hoffset, hlookahead, hexhausted, hlast⟩
    cases input'
    simp_all [map]
  · rintro rfl
    exact ⟨rfl, rfl, rfl, rfl, rfl, rfl⟩

end Input

namespace Intersection

variable {L L' R R' : Type} {f : L → L'} {g : R → R'}

/-- The intersection with the cursors of its inputs mapped. -/
def map (f : L → L') (g : R → R') (m : Intersection L R) : Intersection L' R' :=
  ⟨m.left.map f, m.right.map g, m.comparator, m.join, m.output, m.checkOrder, m.stats,
    m.lifecycle⟩

theorem alike_iff {m : Intersection L R} {m' : Intersection L' R'} :
    Alike .none (fun c c' => c' = f c) (fun c c' => c' = g c) m m' ↔ m' = m.map f g := by
  constructor
  · rintro ⟨hleft, hright, hcomparator, hjoin, houtput, hstats, hchecks, hlifecycle⟩
    rw [Input.alike_iff] at hleft hright
    rw [Leeway.checks_none_iff] at hchecks
    rw [Leeway.lifecycles_none_iff] at hlifecycle
    cases m'
    simp_all [map]
  · rintro rfl
    exact ⟨Input.alike_iff.mpr rfl, Input.alike_iff.mpr rfl, rfl, rfl, rfl, rfl, .inl rfl,
      Leeway.lifecycles_none_iff.mpr rfl⟩

variable [Cursor L] [Cursor L'] [Cursor R] [Cursor R']

/-- Mapping the inputs mirrors an intersection. -/
theorem mirrors (hf : Cursor.Mirrors f) (hg : Cursor.Mirrors g) :
    Cursor.Mirrors (map f g : Intersection L R → Intersection L' R') := by
  have hmap : Alike .none (fun c c' => c' = f c) (fun c c' => c' = g c) =
      fun (m : Intersection L R) m' => m' = m.map f g :=
    funext₂ fun _ _ => propext alike_iff
  exact Cursor.mirrors_iff.mpr
    (hmap ▸ simulates (Cursor.mirrors_iff.mp hf) (Cursor.mirrors_iff.mp hg))

end Intersection

namespace Watching

variable {γ δ : Type} {f : γ → δ}

/-- The cursor with the one below it mapped. -/
def map (f : γ → δ) (c : Watching γ) : Watching δ :=
  ⟨f c.cursor, c.sights⟩

theorem mirrors [Cursor γ] [Cursor δ] (hf : Cursor.Mirrors f) : Cursor.Mirrors (map f) where
  state c := hf.state c.cursor
  openOn stores context c := by
    show Call.mk (Cursor.openOn stores context (f c.cursor)).result
      (Watching.mk (Cursor.openOn stores context (f c.cursor)).cursor c.sights)
      (Cursor.openOn stores context (f c.cursor)).events = _
    rw [hf.openOn]
    rfl
  advance context c := by
    show Call.mk (Cursor.advance (c.sights.headD context) (f c.cursor)).result
      (Watching.mk (Cursor.advance (c.sights.headD context) (f c.cursor)).cursor c.sights.tail)
      (Cursor.advance (c.sights.headD context) (f c.cursor)).events = _
    rw [hf.advance]
    rfl
  close c := by
    show (Watching.mk (Cursor.close (f c.cursor)).1 c.sights, (Cursor.close (f c.cursor)).2) = _
    rw [hf.close]
    rfl

end Watching

end TableGroups
