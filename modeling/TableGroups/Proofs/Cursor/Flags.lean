import TableGroups.Proofs.Cursor.Balance
import TableGroups.Proofs.Cursor.Semijoin

/-!
# What the flags of an execution decide

A query is run with or without metrics, and with or without a check of the order of inputs.  Cursors
take both flags from the context they are opened under, and ask the context again when the query is
stopped.  Neither flag has a part in what is answered
(`QueryShape.answers_independent_of_flags`).  Without metrics the answers and states are the same,
and nothing is reported.  Without the check they are the same as long as the check has nothing to
refuse.

The statement is one simulation (`QueryShape.simulates`) with three kinds of leeway.  Two runs may
report what they like (`Leeway.metrics`); a run that goes beside itself does not report anything
(`Leeway.silence`); a run that checks the order may be stopped where one that does not goes on
(`Leeway.order`).
-/

namespace TableGroups

/-! ### Contexts and steps -/

namespace QueryContext

/-- The context with metrics recorded or not. -/
def recording (context : QueryContext) (records : Bool) : QueryContext :=
  { context with config := { context.config with recordMetrics := records } }

/-- The context with the order of inputs checked or not. -/
def checking (context : QueryContext) (checks : Bool) : QueryContext :=
  { context with config := { context.config with checkInputOrder := checks } }

end QueryContext

/-- The step with the context of its call changed. -/
def UsageStep.under (f : QueryContext → QueryContext) : UsageStep → UsageStep
  | .call context asked => .call (f context) asked
  | .change store made => .change store made

@[simp] theorem UsageStep.under_id (step : UsageStep) : step.under id = step := by
  cases step <;> rfl

/-- A reply without what was reported. -/
def Reply.outcome (reply : Reply) : Except CursorError CursorAnswer × CursorState :=
  (reply.result, reply.state)

/-- Lists that are the same under one map are related place by place under others. -/
theorem forall₂_map_of_map_eq {α β δ : Type} {R : δ → δ → Prop} {f : α → β} {g g' : α → δ}
    (hR : ∀ a b, f a = f b → R (g a) (g' b)) {as bs : List α} (h : as.map f = bs.map f) :
    List.Forall₂ R (as.map g) (bs.map g') := by
  have hsame : List.Forall₂ (fun a b => f a = f b) as bs := by
    rwa [← List.forall₂_eq_eq_eq, List.forall₂_map_left_iff, List.forall₂_map_right_iff] at h
  rw [List.forall₂_map_left_iff, List.forall₂_map_right_iff]
  exact hsame.imp hR

/-! ### Three kinds of leeway -/

namespace Leeway

/-- The contexts differ in whether metrics are recorded, and reports may differ in everything. -/
def metrics : Leeway where
  contexts context context' := context.recording false = context'.recording false
  records _ _ := True
  recorded _ _ := True
  reports _ _ := True
  lenient := False
  interruption_eq {context context'} h := by
    show (context'.recording false).interruption? = (context.recording false).interruption?
    rw [h]
  records_of_contexts _ := trivial
  checks_of_contexts {context context'} h := by
    left
    show (context'.recording false).config.checkInputOrder =
      (context.recording false).config.checkInputOrder
    rw [h]
  recorded_of_records _ := trivial
  reports_nil := trivial
  reports_append _ _ := trivial
  reports_if _ _ := trivial

/-- A run without metrics beside itself. -/
def silence : Leeway where
  contexts context context' := context' = context ∧ context.config.recordMetrics = false
  records b b' := b = false ∧ b' = false
  recorded _ _ := True
  reports events events' := events = [] ∧ events' = []
  lenient := False
  interruption_eq := by
    rintro _ _ ⟨rfl, -⟩
    rfl
  records_of_contexts := by
    rintro _ _ ⟨rfl, hoff⟩
    exact ⟨hoff, hoff⟩
  checks_of_contexts := by
    rintro _ _ ⟨rfl, -⟩
    exact .inl rfl
  recorded_of_records _ := trivial
  reports_nil := ⟨rfl, rfl⟩
  reports_append := by
    rintro _ _ _ _ ⟨rfl, rfl⟩ ⟨rfl, rfl⟩
    exact ⟨rfl, rfl⟩
  reports_if := by
    rintro _ _ _ ⟨rfl, rfl⟩
    exact ⟨rfl, rfl⟩

/-- Only the first run checks the order of inputs. -/
def order : Leeway :=
  { Leeway.none with
    contexts := fun context context' => context' = context.checking false
    lenient := True
    interruption_eq := by
      rintro _ _ rfl
      rfl
    records_of_contexts := by
      rintro _ _ rfl
      rfl
    checks_of_contexts := by
      rintro _ _ rfl
      exact .inr ⟨trivial, rfl⟩ }

/-- Replies within any leeway have the same outcomes. -/
theorem outcomes_eq {leeway : Leeway} {replies replies' : List Reply}
    (h : List.Forall₂ leeway.Replies replies replies') :
    replies'.map Reply.outcome = replies.map Reply.outcome := by
  induction h with
  | nil => rfl
  | cons hreply _ ih =>
    exact congrArg₂ List.cons (Prod.ext hreply.result_eq hreply.state_eq) ih

/-- Without the check replies stay as they are. -/
theorem replies_eq_of_order {replies replies' : List Reply}
    (h : List.Forall₂ order.Replies replies replies') : replies' = replies := by
  have hsame : List.Forall₂ Eq replies replies' := h.imp fun reply reply' hreply => by
    obtain ⟨result, state, events⟩ := reply
    obtain ⟨result', state', events'⟩ := reply'
    obtain ⟨hresult, hstate, hevents⟩ := hreply
    have hevents : events = events' := hevents
    simp_all
  exact (List.forall₂_eq_eq_eq ▸ hsame).symm

end Leeway

/-! ### Trees -/

/-- Inputs that are the same but for their cursors. -/
theorem Input.alike_of_map_eq {γ δ : Type} {R : δ → δ → Prop} {f g g' : γ → δ}
    {input input' : Input γ} (h : input.map f = input'.map f)
    (hcursor : R (g input.cursor) (g' input'.cursor)) :
    (input.map g).Alike R (input'.map g') := by
  simp only [map, mk.injEq] at h
  obtain ⟨-, hrowType, hoffset, hlookahead, hexhausted, hlast⟩ := h
  exact ⟨hcursor, hrowType.symm, hoffset.symm, hlookahead.symm, hexhausted.symm, hlast.symm⟩

namespace QueryShape

/-- The tree with the contexts changed that its cursors are going to see. -/
def under (f : QueryContext → QueryContext) : (shape : QueryShape) → shape.Carrier → shape.Carrier
  | .rows, c => c
  | .scan, c => c
  | .intersection left right, (m : Intersection left.Carrier right.Carrier) =>
    m.map (left.under f) (right.under f)
  | .watching input, (c : Watching input.Carrier) =>
    Watching.mk (input.under f c.cursor) (c.sights.map f)

/-- Every lifecycle in a tree is of this kind. -/
def AllLifecycles (P : Lifecycle → Prop) : (shape : QueryShape) → shape.Carrier → Prop
  | .rows, (c : RowsCursor) => P c.lifecycle
  | .scan, (c : IndexScan) => P c.lifecycle
  | .intersection left right, (m : Intersection left.Carrier right.Carrier) =>
    P m.lifecycle ∧ left.AllLifecycles P m.left.cursor ∧ right.AllLifecycles P m.right.cursor
  | .watching input, (c : Watching input.Carrier) => input.AllLifecycles P c.cursor

/-- No open cursor of a tree was opened under a context that records metrics. -/
def Quiet (shape : QueryShape) (c : shape.Carrier) : Prop :=
  shape.AllLifecycles (fun lifecycle => lifecycle.state ≠ .closed → lifecycle.recordMetrics = false)
    c

/-- Two trees whose runs go side by side. -/
def Alike (leeway : Leeway) : (shape : QueryShape) → shape.Carrier → shape.Carrier → Prop
  | .rows => RowsCursor.Alike leeway
  | .scan => IndexScan.Alike leeway
  | .intersection left right => Intersection.Alike leeway (left.Alike leeway) (right.Alike leeway)
  | .watching input => Watching.Alike leeway (input.Alike leeway)

theorem simulates (leeway : Leeway) (shape : QueryShape) :
    Cursor.Simulates leeway (shape.Alike leeway) := by
  induction shape with
  | rows => exact RowsCursor.simulates leeway
  | scan => exact IndexScan.simulates leeway
  | intersection left right ihLeft ihRight => exact Intersection.simulates ihLeft ihRight
  | watching input ih => exact Watching.simulates ih

/-- A tree whose cursors are closed is quiet. -/
theorem quiet_of_closed {shape : QueryShape} {c : shape.Carrier}
    (h : shape.All (· = .closed) c) : shape.Quiet c := by
  induction shape with
  | rows => exact fun hopen => absurd h hopen
  | scan => exact fun hopen => absurd h hopen
  | intersection left right ihLeft ihRight =>
    exact ⟨fun hopen => absurd h.1 hopen, ihLeft h.2.1, ihRight h.2.2⟩
  | watching input ih => exact ih h

variable {leeway : Leeway}

/-- All cursors of two trees that go side by side are in the same states. -/
theorem cursors_eq_of_alike {shape : QueryShape} {c c' : shape.Carrier}
    (h : shape.Alike leeway c c') : shape.cursors c' = shape.cursors c := by
  induction shape with
  | rows =>
    have hstate := (RowsCursor.simulates leeway).state_eq h
    exact congrArg (fun state => [(CursorKind.rows, state)]) hstate
  | scan =>
    have hstate := (IndexScan.simulates leeway).state_eq h
    exact congrArg (fun state => [(CursorKind.indexScan, state)]) hstate
  | intersection left right ihLeft ihRight =>
    have hinputs := congrArg₂ List.append (ihLeft h.left.cursor) (ihRight h.right.cursor)
    exact congrArg₂ (fun state rest => (CursorKind.intersection, state) :: rest)
      h.lifecycle.state_eq hinputs
  | watching input ih => exact ih h.cursor

theorem under_id {shape : QueryShape} (c : shape.Carrier) : shape.under id c = c := by
  induction shape with
  | rows => rfl
  | scan => rfl
  | intersection left right ihLeft ihRight =>
    show Intersection.map (left.under id) (right.under id) c = c
    rw [funext ihLeft, funext ihRight]
    rfl
  | watching input ih =>
    show Watching.mk (input.under id c.cursor) (c.sights.map id) = c
    rw [ih, List.map_id]
    rfl

theorem allLifecycles {P : Lifecycle → Prop} (hP : ∀ lifecycle, P lifecycle) {shape : QueryShape}
    (c : shape.Carrier) : shape.AllLifecycles P c := by
  induction shape with
  | rows => exact hP _
  | scan => exact hP _
  | intersection left right ihLeft ihRight => exact ⟨hP _, ihLeft _, ihRight _⟩
  | watching input ih => exact ih _

section

variable (leeway : Leeway) {f : QueryContext → QueryContext} (g g' : QueryContext → QueryContext)

/-- Trees that are the same but for the contexts that their cursors are going to see go side by
side, if these contexts do. -/
theorem alike_under (hcontexts : ∀ a b, f a = f b → leeway.contexts (g a) (g' b))
    {P : Lifecycle → Prop} (hP : ∀ lifecycle, P lifecycle → leeway.Lifecycles lifecycle lifecycle)
    {shape : QueryShape} {c c' : shape.Carrier} (h : shape.under f c = shape.under f c')
    (hlifecycles : shape.AllLifecycles P c) :
    shape.Alike leeway (shape.under g c) (shape.under g' c') := by
  induction shape with
  | rows =>
    obtain rfl : c = c' := h
    exact ⟨_, rfl, hP _ hlifecycles⟩
  | scan =>
    obtain rfl : c = c' := h
    exact ⟨_, rfl, hP _ hlifecycles⟩
  | intersection left right ihLeft ihRight =>
    obtain ⟨hown, hleft, hright⟩ := hlifecycles
    have hmap : Intersection.map (left.under f) (right.under f) c =
      Intersection.map (left.under f) (right.under f) c' := h
    simp only [Intersection.map, Intersection.mk.injEq] at hmap
    obtain ⟨hl, hr, hcomparator, hjoin, houtput, hcheck, hstats, hlifecycle⟩ := hmap
    refine ⟨Input.alike_of_map_eq hl (ihLeft (congrArg Input.cursor hl) hleft),
      Input.alike_of_map_eq hr (ihRight (congrArg Input.cursor hr) hright),
      hcomparator.symm, hjoin.symm, houtput.symm, hstats.symm, .inl hcheck.symm, ?_⟩
    exact hlifecycle ▸ hP _ hown
  | watching input ih =>
    have hmap : Watching.mk (input.under f c.cursor) (c.sights.map f) =
      Watching.mk (input.under f c'.cursor) (c'.sights.map f) := h
    rw [Watching.mk.injEq] at hmap
    exact ⟨ih hmap.1 hlifecycles, forall₂_map_of_map_eq hcontexts hmap.2⟩

/-- Steps that are the same but for their contexts go side by side, if the contexts do. -/
theorem steps_under (hcontexts : ∀ a b, f a = f b → leeway.contexts (g a) (g' b))
    {steps steps' : List UsageStep} (h : steps.map (·.under f) = steps'.map (·.under f)) :
    List.Forall₂ leeway.Steps (steps.map (·.under g)) (steps'.map (·.under g')) := by
  refine forall₂_map_of_map_eq (fun step step' hstep => ?_) h
  cases step with
  | call context asked =>
    cases step' with
    | change store made => cases hstep
    | call context' asked' =>
      obtain ⟨hsame, rfl⟩ := UsageStep.call.inj hstep
      exact .call (hcontexts _ _ hsame) asked
  | change store made =>
    cases step' with
    | call context asked => cases hstep
    | change store' made' =>
      cases hstep
      exact .change store made

/-- Runs of trees that are the same but for the contexts of their calls go side by side. -/
theorem run_under (hcontexts : ∀ a b, f a = f b → leeway.contexts (g a) (g' b))
    {P : Lifecycle → Prop} (hP : ∀ lifecycle, P lifecycle → leeway.Lifecycles lifecycle lifecycle)
    {shape : QueryShape} {c c' : shape.Carrier} (h : shape.under f c = shape.under f c')
    (hlifecycles : shape.AllLifecycles P c) (stores : Stores) (steps steps' : List UsageStep)
    (hsteps : steps.map (·.under f) = steps'.map (·.under f))
    (hanswers : leeway.lenient →
      (Usage.start stores (shape.under g c)).answersRequests (steps.map (·.under g))) :
    let usage := (Usage.start stores (shape.under g c)).run (steps.map (·.under g))
    let usage' := (Usage.start stores (shape.under g' c')).run (steps'.map (·.under g'))
    shape.cursors usage'.cursor = shape.cursors usage.cursor ∧
      List.Forall₂ leeway.Replies usage.replies usage'.replies := by
  intro usage usage'
  have hrun := (shape.simulates leeway).run (.start stores (shape.under g c))
    (.start stores (shape.under g' c')) rfl (alike_under leeway g g' hcontexts hP h hlifecycles)
    .nil (steps_under leeway g g' hcontexts hsteps) hanswers
  exact ⟨cursors_eq_of_alike hrun.1, hrun.2⟩

end

/-- **Flags do not change answers.**  Take two runs of the calls on a tree, in whatever state it is.
If their contexts differ in nothing but the recording of metrics, then every call is answered alike
and leaves all cursors in the same states; and a run without metrics, of a tree in which no open
cursor records any, reports nothing.  If one run checks the order of inputs and the other one does
not, and no request for a row of the run that checks fails, then every call is replied alike. -/
theorem answers_independent_of_flags (shape : QueryShape) (stores : Stores) :
    (∀ (c c' : shape.Carrier) (steps steps' : List UsageStep),
        shape.under (·.recording false) c = shape.under (·.recording false) c' →
        steps.map (·.under (·.recording false)) = steps'.map (·.under (·.recording false)) →
          let usage := (Usage.start stores c).run steps
          let usage' := (Usage.start stores c').run steps'
          usage'.replies.map Reply.outcome = usage.replies.map Reply.outcome ∧
            shape.cursors usage'.cursor = shape.cursors usage.cursor) ∧
      (∀ (c : shape.Carrier) (steps : List UsageStep), shape.Quiet c →
        let silent := (Usage.start stores (shape.under (·.recording false) c)).run
          (steps.map (·.under (·.recording false)))
        ∀ reply ∈ silent.replies, reply.events = []) ∧
      ∀ (c : shape.Carrier) (steps : List UsageStep),
        let checked := Usage.start stores (shape.under (·.checking true) c)
        let unchecked := Usage.start stores (shape.under (·.checking false) c)
        let checkedSteps := steps.map (·.under (·.checking true))
        let uncheckedSteps := steps.map (·.under (·.checking false))
        checked.answersRequests checkedSteps →
          (unchecked.run uncheckedSteps).replies = (checked.run checkedSteps).replies ∧
            shape.cursors (unchecked.run uncheckedSteps).cursor =
              shape.cursors (checked.run checkedSteps).cursor := by
  refine ⟨fun c c' steps steps' hc hsteps => ?_, fun c steps hquiet => ?_, fun c steps => ?_⟩
  · -- whatever is reported, results and states agree
    have hrun := run_under .metrics id id (fun _ _ hsame => hsame)
      (fun _ _ => .refl fun _ => trivial) hc
      (allLifecycles (P := fun _ => True) (fun _ => trivial) c) stores steps steps' hsteps
      False.elim
    simp only [under_id, UsageStep.under_id, List.map_id'] at hrun
    exact ⟨Leeway.outcomes_eq hrun.2, hrun.1⟩
  · -- the run without metrics goes beside itself
    have hoff : ∀ lifecycle : Lifecycle,
        (lifecycle.state ≠ .closed → lifecycle.recordMetrics = false) →
          Leeway.silence.Lifecycles lifecycle lifecycle :=
      fun lifecycle hquiet => ⟨rfl, fun hopen => ⟨hquiet hopen, hquiet hopen⟩, trivial⟩
    have hrun := run_under .silence (·.recording false) (·.recording false)
      (fun _ _ hsame => ⟨hsame.symm, rfl⟩) hoff rfl hquiet stores steps steps rfl False.elim
    intro silent reply hreply
    exact ((List.forall₂_same.mp hrun.2) reply hreply).reports.1
  · -- only the run that checks may be stopped, and it is not
    intro checked unchecked checkedSteps uncheckedSteps hanswers
    have hrun := run_under .order (·.checking true) (·.checking false)
      (f := (·.checking false)) (fun _ _ hsame => hsame.symm) (fun _ _ => .refl fun _ => rfl) rfl
      (allLifecycles (P := fun _ => True) (fun _ => trivial) c) stores steps steps rfl
      fun _ => hanswers
    exact ⟨Leeway.replies_eq_of_order hrun.2, hrun.1⟩

/-- Numbers that look at their query for themselves beside named numbers, all descending. -/
def watchedNumbers : (intersection rows (watching rows)).Carrier :=
  IntersectionRequest.made IntersectionRequest.sampleLeft
    ⟨Watching.mk IntersectionRequest.sampleRight.cursor [.standard, .standard],
      .derived "number" [.int], 1⟩
    [.desc] .inner .left

/-- The tree is opened, asked for three rows and closed. -/
def readingThree : List UsageStep :=
  [.call .standard .openOn, .call .standard .advance, .call .standard .advance,
    .call .standard .advance, .call .standard .close]

/-- The calls on the tree under contexts that a map changes. -/
def readUnder (f : QueryContext → QueryContext) :
    Usage (intersection rows (watching rows)).Carrier :=
  (Usage.start (fun _ => .empty) (under f _ watchedNumbers)).run (readingThree.map (·.under f))

/-- With metrics the calls report, and without them the answers are the same and nothing is
reported.  The rows come in order, so without the check the replies are the same too. -/
theorem answers_independent_of_flags_watchedNumbers :
    (¬ ∀ reply ∈ (readUnder (·.recording true)).replies, reply.events = []) ∧
      (readUnder (·.recording false)).replies.map Reply.outcome =
        (readUnder (·.recording true)).replies.map Reply.outcome ∧
      (∀ reply ∈ (readUnder (·.recording false)).replies, reply.events = []) ∧
      (readUnder (·.checking false)).replies = (readUnder (·.checking true)).replies := by
  obtain ⟨hmetrics, hsilence, horder⟩ := answers_independent_of_flags
    (intersection rows (watching rows)) (fun _ => .empty)
  have hquiet : Quiet _ watchedNumbers := quiet_of_closed (by decide)
  have hsame := hmetrics (under (·.recording true) _ watchedNumbers)
    (under (·.recording false) _ watchedNumbers) (readingThree.map (·.under (·.recording true)))
    (readingThree.map (·.under (·.recording false))) rfl rfl
  have hanswers : Usage.answersRequests
      (.start (fun _ => .empty) (under (·.checking true) _ watchedNumbers))
      (readingThree.map (·.under (·.checking true))) := by decide +kernel
  exact ⟨by decide +kernel, hsame.1, hsilence _ _ hquiet, (horder _ _ hanswers).1⟩

end QueryShape

end TableGroups
