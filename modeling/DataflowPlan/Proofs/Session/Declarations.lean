import DataflowPlan.Proofs.Analysis.Declarations
import DataflowPlan.Proofs.Session.CompletePlan

/-! What increments declare. Each of them declares the intermediate sets that its stages write and
combine into and no others, so that every intermediate set of a run is declared before it is used.
-/

namespace DataflowPlan.Session

/-- The increment declares what its stages write for the job and combine into, and nothing else;
what they use beside it was declared earlier.
-/
structure DeclaresExactly (earlier : List SetId) (increment : Increment) : Prop where
  exact
    : increment.intermediateSets.Perm
        (increment.stages.filterMap Stage.transientSink?
          ++ increment.stages.filterMap Stage.combiner?)
  covers
    : ∀ stage ∈ increment.stages,
        ∀ set,
          stage.Uses set →
            set.isIntermediate = true → set ∈ earlier ++ increment.intermediateSets

/-- The intermediate sets that pipelines can start from are declared. -/
def SourcesDeclared (out : Increment) (s : Session) : Prop :=
  ∀ p set,
    (s.node p).sourceSet = some set → set.isIntermediate = true → set ∈ out.intermediateSets

variable {s : Session} {out : Increment} {stats : Statistics} {skip : List String}
  {key : String} {source : NodeId} {reached : StageId} {segment : Segment}

/-- At the beginning pipelines start from the user's sets alone. -/
theorem Beginning.sourcesDeclared {g : Graph} (beginning : s.Beginning g)
    : SourcesDeclared .empty s := by
  intro p set isSource transient
  obtain ⟨c, -, -, names⟩ := beginning.exists_scan isSource
  simp [SetId.isIntermediate, Computation.user_of_set? names] at transient

/-- A planned pipeline declares what its stages need beside the set that it starts from. -/
theorem Committed.declares (done : s.Committed stats skip key source reached segment)
    : ∃ set,
        (s.node source).sourceSet = some set
        ∧ View.Declares ((s.view stats).sourceDraft source set) segment := by
  obtain ⟨set, consumer, others, path, inner, isSource, -, pipeline, rfl, -⟩ :=
    View.analyze_planned done.planned
  have declares := pipeline.declares rfl
  exact ⟨set, isSource, declares.exact, declares.reads, declares.source⟩

theorem SourcesDeclared.commit (declared : SourcesDeclared out s)
    (done : s.Committed stats skip key source reached segment)
    : SourcesDeclared (out.append ⟨segment.stages, segment.intermediateSets⟩)
        (s.commit key source reached segment) := by
  obtain ⟨own, -, declares⟩ := done.declares
  intro p set isSource transient
  rw [node_commit] at isSource
  rcases segment.node_apply s.topology p with same | ⟨new, here, changed⟩
  · rw [same, sourceSet_foldl] at isSource
    exact List.mem_append_left _ (declared p set isSource transient)
  · rw [changed] at isSource
    obtain rfl := Option.some.inj isSource
    exact List.mem_append_right _ (declares.source p new here transient)

/-- In every session that a run leads to, what pipelines can start from is declared. -/
theorem steady_sourcesDeclared : Steady SourcesDeclared := by
  refine steady_of_commit (fun declared done => declared.commit done) ?_ fun declared => declared
  intro out s declared key source p set isSource
  rw [sourceSet_penalize] at isSource
  exact declared p set isSource

/-- A planned pipeline declares exactly what its stages use beside what was declared before. -/
theorem SourcesDeclared.declaresExactly (declared : SourcesDeclared out s)
    (done : s.Committed stats skip key source reached segment)
    : DeclaresExactly out.intermediateSets ⟨segment.stages, segment.intermediateSets⟩ := by
  obtain ⟨own, isSource, declares⟩ := done.declares
  refine ⟨declares.exact.trans (flatMap_transients_perm _), ?_⟩
  intro stage member set uses transient
  -- what a stage writes or combines into is among its transients
  have used : set ∈ stage.transients → set ∈ out.intermediateSets ++ segment.intermediateSets := by
    intro needed
    have listed : set ∈ segment.stages.flatMap Stage.transients :=
      List.mem_flatMap.mpr ⟨stage, member, needed⟩
    exact List.mem_append_right _ (declares.exact.mem_iff.mpr listed)
  cases uses with
  | reads reads =>
      subst reads
      rcases declares.reads stage member with begins | here
      · obtain rfl : own = stage.source := Option.some.inj begins
        exact List.mem_append_left _ (declared source _ isSource transient)
      · exact List.mem_append_right _ here
  | writes sink =>
      refine used (List.mem_append_left _ ?_)
      simp [Stage.transientSink?, sink, Option.filter, transient]
  | combines combiner =>
      refine used (List.mem_append_right _ ?_)
      simp [combiner]

/-- In every session that a run leads to, and with any statistics, an increment that is planned
declares the intermediate sinks of its stages together with their combiners, each as often as it
occurs there; every intermediate set that its stages read, write or combine into is declared by
itself or by what was planned before.
Witness: each ending declares its sets in the same cases in which its stages use them, and a source
with an intermediate set was left by a pipeline that declared it.
-/
theorem declares_of_run {jobId : String} {g : Graph} {config : PlannerConfig} {first : Session}
    (started : Session.start jobId g config = .ok first) (calls : List (Call × Statistics))
    (stats : Statistics) {increment : Increment} {next : Session}
    (planned : (first.run calls).2.planIncrement stats = (.ok increment, next))
    : DeclaresExactly (first.run calls).1.intermediateSets increment := by
  obtain ⟨beginning, -⟩ := beginning_of_start started
  have declared := steady_sourcesDeclared.run beginning.sourcesDeclared calls
  have ends := (first.run calls).2.planIncrement_comesTo stats
  rw [planned] at ends
  cases ends with
  | idle tries none => exact ⟨.nil, by simp [Increment.empty]⟩
  | planned tries attempted =>
      obtain ⟨key, source, reached, segment, done, rfl, rfl⟩ := committed_of_attempt attempted
      exact (steady_sourcesDeclared.waits declared tries.waits).declaresExactly done

/-- Both scanned sets are costly, so that their join is carried out by splitting them by key. -/
def costlySides : Statistics :=
  (Statistics.empty.setBytes "db" "left" 20000000000).setBytes "db" "right" 30000000000

/-- The second increment splits the probing side and materializes the join for its two readers. -/
theorem everyKind_declares
    : ∃ first increment next,
        Session.start "job" everyKind .standard = .ok first
        ∧ (first.run [(.nextStages, costlySides)]).2.planIncrement costlySides
          = (.ok increment, next)
        ∧ increment.intermediateSets.map SetId.key = ["job:both_probeRepartitionData", "job:both"]
        ∧ DeclaresExactly (first.run [(.nextStages, costlySides)]).1.intermediateSets
            increment := by
  let calls : List (Call × Statistics) := [(.nextStages, costlySides)]
  have runs : ((Session.start "job" everyKind .standard).toOption.bind fun first =>
      ((first.run calls).2.planIncrement costlySides).1.toOption.map fun increment =>
        increment.intermediateSets.map SetId.key)
      = some ["job:both_probeRepartitionData", "job:both"] := by
    decide +kernel
  obtain ⟨first, outcome, runs⟩ := Except.toOption_bind_eq_some_iff.mp runs
  obtain ⟨increment, planned, keys⟩ := Except.toOption_map_eq_some_iff.mp runs
  have result : (first.run calls).2.planIncrement costlySides = (.ok increment, _) :=
    Prod.ext planned rfl
  exact ⟨first, increment, _, outcome, result, keys,
    declares_of_run outcome calls costlySides result⟩

end DataflowPlan.Session
