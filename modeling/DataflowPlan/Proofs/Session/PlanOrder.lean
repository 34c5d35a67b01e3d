import DataflowPlan.Proofs.Analysis.StageOrder
import DataflowPlan.Proofs.Session.CompletePlan

/-! The order of emitted plans. Whatever the statistics of each call, every set that pipelines can
start from and every hash set that they can probe was left by the stages planned so far, so that the
plan always passes its own check.
-/

namespace DataflowPlan.Session

/-- The stages so far are in order, and left all that later ones can ask for. -/
structure Ordered (out : Increment) (s : Session) : Prop where
  ordered : InOrder out.stages
  below : ∀ stage ∈ out.stages, stage.id < s.nextStage
  sources : ∀ p set, (s.node p).sourceSet = some set → set.ReadableAfter out.stages
  joins
    : ∀ p strategy hashSet,
        (s.node p).IsStarted strategy hashSet → BuiltBy out.stages hashSet

variable {s : Session} {out : Increment}

/-- At the beginning pipelines start from the user's sets alone, and no join is started. -/
theorem Beginning.ordered {g : Graph} (beginning : s.Beginning g)
    : Ordered .empty s := by
  refine ⟨inOrder_nil, by simp [Increment.empty], ?_, ?_⟩
  · intro p set isSource
    obtain ⟨c, -, -, names⟩ := beginning.exists_scan isSource
    exact .inl (Computation.user_of_set? names)
  · intro p strategy hashSet started
    exact absurd started (beginning.not_started p strategy hashSet)

/-- A planned pipeline sets out from what the stages so far have left, and leaves more. -/
theorem Ordered.commit (holds : Ordered out s) {stats : Statistics} {skip : List String}
    {key : String} {source : NodeId} {reached : StageId} {segment : Segment}
    (done : s.Committed stats skip key source reached segment)
    : Ordered (out.append ⟨segment.stages, segment.intermediateSets⟩)
        (s.commit key source reached segment) := by
  obtain ⟨set, consumer, others, path, inner, isSource, active, pipeline, rfl, rfl⟩ :=
    View.analyze_planned done.planned
  have relies : (s.view stats).Relies s.nextStage ((s.view stats).sourceDraft source set)
      out.stages := by
    refine ⟨holds.ordered, holds.below, ?_, ?_, holds.joins⟩
    · rintro _ ⟨⟩
      exact holds.sources source set isSource
    · intro hashSet member
      simp [View.sourceDraft, TupleSetDraft.ofJob, Table.values, EmptyCollection.emptyCollection]
        at member
  have settles := pipeline.settles relies
  refine ⟨settles.ordered, ?_, ?_, ?_⟩
  · intro stage member
    rw [nextStage_commit]
    rcases List.mem_append.mp member with before | planned
    · exact Nat.lt_of_lt_of_le (holds.below stage before) (Nat.le_add_right _ _)
    · exact settles.below stage planned
  · intro p made isSource
    rw [node_commit] at isSource
    rcases (inner.through source).node_apply s.topology p with same | ⟨new, here, changed⟩
    · rw [same, sourceSet_foldl] at isSource
      exact (holds.sources p made isSource).append _
    · rw [changed] at isSource
      exact settles.source p made (Option.some.inj isSource ▸ here)
  · intro p strategy hashSet started
    rw [node_commit] at started
    rcases Segment.isStarted_apply started with before | ⟨name, starts⟩
    · exact (holds.joins p strategy hashSet before).append _
    · rcases List.mem_append.mp starts with closing | consumed
      · exact settles.joins p name strategy hashSet closing
      · simp at consumed

theorem Ordered.penalize (holds : Ordered out s) (key : String) (source : NodeId)
    : Ordered out (s.penalize key source) := by
  refine ⟨holds.ordered, holds.below, ?_, ?_⟩
  · intro p set isSource
    rw [sourceSet_penalize] at isSource
    exact holds.sources p set isSource
  · intro p strategy hashSet started
    have kind : ((s.penalize key source).node p).kind = (s.node p).kind :=
      Arena.kind_rotate s.topology.arena source p
    rw [PhysicalNode.IsStarted, kind] at started
    exact holds.joins p strategy hashSet started

/-- In every session that a run leads to, the stages planned so far are in order. -/
theorem steady_ordered : Steady Ordered :=
  steady_of_commit (fun holds done => holds.commit done)
    (fun holds key source => holds.penalize key source)
    (fun holds => ⟨holds.ordered, holds.below, holds.sources, holds.joins⟩)

-----------------------------------------------------------------------------------------------
-- Plans from increments
-----------------------------------------------------------------------------------------------

/-- The plan extended by increments in turn, each planned with its own statistics; a call that fails
adds nothing.
-/
def extendBy (s : Session) (plan : Plan) : List Statistics → Plan
  | [] => plan
  | stats :: rest =>
    match s.planIncrement stats with
    | (.ok increment, next) => next.extendBy (plan.extend increment) rest
    | (.error _, next) => next.extendBy plan rest

/-- Increments in turn are a run. -/
theorem extendBy_eq (s : Session) (plan : Plan) (calls : List Statistics)
    : s.extendBy plan calls = plan.extend (s.run (calls.map (.planIncrement, ·))).1 := by
  induction calls generalizing s plan with
  | nil => exact (extend_empty plan).symm
  | cons stats rest ih =>
      rw [List.map_cons, run_cons, call, extendBy]
      cases s.planIncrement stats with
      | mk result next =>
          cases result with
          | ok increment => simp [ih, collect, Plan.extend, Increment.append, Increment.empty]
          | error error => simp [ih, collect, Plan.extend, Increment.append, Increment.empty]

/-- Every emitted plan is in order and passes its own check, with any statistics at each increment,
and so does a plan of all.
-/
theorem plan_inOrder {jobId : String} {g : Graph} {config : PlannerConfig} {first : Session}
    (started : Session.start jobId g config = .ok first)
    : (∀ calls : List Statistics,
          InOrder (first.extendBy (.ofJob jobId) calls).stages
          ∧ (first.extendBy (.ofJob jobId) calls).checkOrder = .ok ())
      ∧ ∀ stats plan next,
          first.planAll stats = (.ok plan, next) →
            InOrder plan.stages ∧ plan.checkOrder = .ok () := by
  obtain ⟨beginning, -⟩ := beginning_of_start started
  have ran : ∀ calls, InOrder (first.run calls).1.stages := fun calls =>
    (steady_ordered.run beginning.ordered calls).ordered
  refine ⟨?_, ?_⟩
  · intro calls
    have ordered : InOrder (first.extendBy (.ofJob jobId) calls).stages := by
      rw [extendBy_eq]
      exact ran _
    exact ⟨ordered, (Plan.checkOrder_eq_ok_iff _).mpr ordered⟩
  · intro stats plan next planned
    obtain ⟨-, calls, whole, -⟩ := planAll_eq_ok planned
    have ordered : InOrder plan.stages := by
      have stages := ran calls
      rwa [whole] at stages
    exact ⟨ordered, (Plan.checkOrder_eq_ok_iff _).mpr ordered⟩

theorem everyKind_inOrder
    : ∃ first,
        Session.start "job" everyKind .standard = .ok first
        ∧ InOrder (first.extendBy (.ofJob "job") (List.replicate 8 .empty)).stages
        ∧ (first.extendBy (.ofJob "job") (List.replicate 8 .empty)).stages.length = 10 := by
  have starts : (Session.start "job" everyKind .standard).isOk = true := by decide +kernel
  obtain ⟨first, outcome⟩ := Except.isOk_iff.mp starts
  refine ⟨first, outcome, ((plan_inOrder outcome).1 _).1, ?_⟩
  have length : ((Session.start "job" everyKind .standard).toOption.map fun first =>
      (first.extendBy (.ofJob "job") (List.replicate 8 .empty)).stages.length) = some 10 := by
    decide +kernel
  rw [outcome] at length
  exact Option.some.inj length

end DataflowPlan.Session
