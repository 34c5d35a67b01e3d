import DataflowPlan.Proofs.Analysis.Relay
import DataflowPlan.Proofs.Session.Declarations

/-! Data on its way through the stages of one attempt, in any run: from the set of the picked source
to the set that the next pipelines can start from.
-/

namespace DataflowPlan.Session

variable {first m next : Session} {stats : Statistics} {skip : List String} {key : String}
  {source : NodeId} {reached : StageId} {segment : Segment} {increment : Increment}

/-- What an attempt plans from the source passes the data of the source's set on, and the node that
it makes a source reads what its last stage writes.
-/
structure PassesOn (s next : Session) (source : NodeId) (segment : Segment) : Prop where
  relays : ∃ set, (s.node source).sourceSet = some set ∧ segment.Relays set
  sources
    : ∀ id made,
        segment.newSource = some (id, made) → (next.node id).sourceSet = some made

/-- A planned pipeline passes its data on.
Witness: the node that it makes a source is its last one, which stands in the arena.
-/
theorem Reaches.passesOn {g : Graph} {followed : List Arena.Edge} {s : Session}
    (reaches : Reaches g first s followed)
    (done : s.Committed stats skip key source reached segment)
    : s.PassesOn (s.commit key source reached segment) source segment := by
  obtain ⟨init, last, set, inner, course, isSource, pipeline, rfl⟩ :=
    View.pipeline_of_analyze done.planned
  obtain ⟨starts, links, leaves⟩ := pipeline.relays rfl
  refine ⟨⟨set, isSource, starts, links, leaves⟩, fun id made new => ?_⟩
  exact sourceSet_newSource course (reaches.has_last course) new

/-- In every run each planned attempt passes its data on: the first stage reads the set of the
source, each later one exactly what the stage before it wrote, and a new source reads what the last
one wrote.
-/
theorem passesOn_of_run {jobId : String} {config : PlannerConfig}
    (started : Session.start jobId g config = .ok first)
    (calls : List (Call × Statistics)) (waits : (first.run calls).2.Waits m)
    (planned : m.attempt stats skip = (.planned increment, next))
    : ∃ key source reached segment,
        m.Committed stats skip key source reached segment
        ∧ increment = ⟨segment.stages, segment.intermediateSets⟩
        ∧ m.PassesOn next source segment := by
  obtain ⟨beginning, -⟩ := beginning_of_start started
  obtain ⟨followed, reaches⟩ := beginning.reaches_of_waits calls waits
  obtain ⟨key, source, reached, segment, done, rfl, rfl⟩ := committed_of_attempt planned
  exact ⟨key, source, reached, segment, done, rfl, reaches.passesOn done⟩

/-- The second attempt splits the probing side in a stage of its own, and the join's output is
materialized from there for its two readers.
-/
theorem everyKind_passesOn
    : ∃ first increment next,
        Session.start "job" everyKind .standard = .ok first
        ∧ (first.run [(.nextStages, costlySides)]).2.attempt costlySides []
          = (.planned increment, next)
        ∧ increment.stages.map (fun stage => (stage.source.key, stage.sink?.map SetId.key))
          = [("db:right", some "job:both_probeRepartitionData"),
              ("job:both_probeRepartitionData", some "job:both")]
        ∧ ∃ source segment,
            segment.stages = increment.stages
            ∧ (first.run [(.nextStages, costlySides)]).2.PassesOn next source segment := by
  let calls : List (Call × Statistics) := [(.nextStages, costlySides)]
  have runs : ((Session.start "job" everyKind .standard).toOption.bind fun first =>
      ((first.run calls).2.attempt costlySides []).1.increment?.map fun increment =>
        increment.stages.map fun stage => (stage.source.key, stage.sink?.map SetId.key))
      = some [("db:right", some "job:both_probeRepartitionData"),
          ("job:both_probeRepartitionData", some "job:both")] := by
    decide +kernel
  obtain ⟨first, started, runs⟩ := Except.toOption_bind_eq_some_iff.mp runs
  obtain ⟨increment, planned, keys⟩ := Option.map_eq_some_iff.mp runs
  have outcome : (first.run calls).2.attempt costlySides [] = (.planned increment, _) :=
    Prod.ext (Attempt.increment?_eq_some_iff.mp planned) rfl
  obtain ⟨_, source, _, segment, -, whole, passes⟩ := passesOn_of_run started calls .here outcome
  exact ⟨first, increment, _, started, outcome, keys, source, segment,
    (congrArg Increment.stages whole).symm, passes⟩

end DataflowPlan.Session
