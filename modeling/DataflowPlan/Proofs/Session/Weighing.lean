import DataflowPlan.Proofs.Analysis.StageOrder
import DataflowPlan.Proofs.Analysis.Weighing
import DataflowPlan.Proofs.Session.Declarations
import DataflowPlan.Proofs.Session.JobSources

/-! What one attempt sees of statistics in any run: only whether the cost of its source's set is
above the threshold.
-/

namespace DataflowPlan.Session

variable {first m s : Session} {source : NodeId} {set : SetId} {key : String}

/-- The topology after an attempt from the source. -/
def attempted (s : Session) (stats : Statistics) (source : NodeId) : Topology :=
  ((s.view stats).analyze source s.nextStage).apply source s.topology

/-- Of statistics an attempt from the source sees on which side of the threshold the cost of the set
is, and nothing else: that decides how the join is built which it starts, and above the threshold it
is not refused.
-/
structure Weighs (s : Session) (source : NodeId) (set : SetId) : Prop where
  alike
    : ∀ stats other : Statistics,
        (stats.costOf set > s.config.joinThreshold
          ↔ other.costOf set > s.config.joinThreshold) →
          (s.view other).analyze source s.nextStage = (s.view stats).analyze source s.nextStage
          ∧ s.attempted other source = s.attempted stats source
  starts
    : ∀ stats p strategy hashSet,
        (s.node p).isStarted = false →
          ((s.attempted stats source).arena.node p).IsStarted strategy hashSet →
            (strategy = .hashPartitioned ↔ stats.costOf set > s.config.joinThreshold)
  builds
    : ∀ stats reached segment,
        (s.view stats).analyze source s.nextStage = ⟨reached, .planned segment⟩ →
          ∀ stage ∈ segment.stages,
            stage.isBuild = true →
              (stage.isPartitionedBuild = true
                ↔ stats.costOf set > s.config.joinThreshold)
  accepted
    : ∀ stats : Statistics,
        stats.costOf set > s.config.joinThreshold →
          ((s.view stats).analyze source s.nextStage).verdict ≠ .refused

/-- A join that an attempt starts is started by the segment that it plans. -/
theorem exists_start_of_attempted {stats : Statistics} {p : NodeId} {strategy : JoinStrategy}
    {hashSet : String} (before : (s.node p).isStarted = false)
    (after : ((s.attempted stats source).arena.node p).IsStarted strategy hashSet)
    : ∃ reached segment name,
        (s.view stats).analyze source s.nextStage = ⟨reached, .planned segment⟩
        ∧ .startJoin p name strategy hashSet ∈ segment.changes := by
  have fresh : ¬ (s.node p).IsStarted strategy hashSet := by
    intro started
    simp [started.isStarted] at before
  unfold attempted Analysis.apply at after
  cases analysis : (s.view stats).analyze source s.nextStage with
  | mk reached verdict =>
      rw [analysis] at after
      cases verdict with
      | planned segment =>
          obtain ⟨name, starts⟩ := (Segment.isStarted_apply after).resolve_left fresh
          exact ⟨reached, segment, name, rfl, starts⟩
      | refused =>
          exact absurd ((Arena.kind_rotate s.topology.arena source p).symm.trans after) fresh
      | failed error => exact absurd after fresh

theorem weighs_of_source (valid : s.config.validate = .ok ())
    (isSource : (s.node source).sourceSet = some set)
    : s.Weighs source set := by
  refine ⟨?_, ?_, ?_, ?_⟩
  · intro stats other above
    have same : (s.view other).analyze source s.nextStage
        = (s.view stats).analyze source s.nextStage := by
      refine View.analyze_withStats (v := s.view stats) source s.nextStage fun own here => ?_
      obtain rfl := Option.some.inj (isSource.symm.trans here)
      exact PlannerConfig.weighsAlike_of_above valid above
    exact ⟨same, by rw [attempted, attempted, same]⟩
  · intro stats p strategy hashSet before after
    obtain ⟨reached, segment, name, planned, starts⟩ := exists_start_of_attempted before after
    rw [View.startsFor_of_analyze (v := s.view stats) isSource planned p name strategy hashSet
      starts]
    exact PlannerConfig.strategyAt_eq_hashPartitioned
  · intro stats reached segment planned stage member build
    rw [View.isPartitionedBuild_of_analyze (v := s.view stats) isSource planned member build]
    exact PlannerConfig.strategyAt_eq_hashPartitioned
  · intro stats above refused
    obtain ⟨⟨own, here, cheap⟩, -⟩ := View.cheap_of_refused refused
    obtain rfl := Option.some.inj (isSource.symm.trans here)
    exact Floats.not_le_of_lt above cheap

theorem validate_of_start {jobId : String} {g : Graph} {config : PlannerConfig}
    (started : Session.start jobId g config = .ok first)
    : config.validate = .ok () := by
  simp only [Session.start, Except.bind_eq_ok] at started
  obtain ⟨⟨⟩, valid, -⟩ := started
  exact valid

/-- In every session that a run leads to, an attempt from a registered source sees of statistics
only on which side of the threshold the cost of the source's set is. That set has the key which the
source is registered under, if computations are filed under their own names.
-/
theorem weighs_of_run {jobId : String} {g : Graph} {config : PlannerConfig}
    (started : Session.start jobId g config = .ok first)
    (calls : List (Call × Statistics)) (waits : (first.run calls).2.Waits m)
    (registered : m.sources.get? key = some source)
    : ∃ set,
        (m.node source).sourceSet = some set
        ∧ (g.Named → set.key = key)
        ∧ m.Weighs source set := by
  obtain ⟨beginning, -, rfl, -⟩ := beginning_of_start started
  obtain ⟨followed, reaches, jobKeyed⟩ := beginning.jobKeyed_of_waits calls waits
  obtain ⟨set, isSource, -⟩ := jobKeyed.entries key source registered
  refine ⟨set, isSource, fun named => ?_, weighs_of_source ?_ isSource⟩
  · obtain ⟨-, -, keyed⟩ := beginning.keyed_of_waits named calls waits
    obtain ⟨own, here, same⟩ := keyed.entries key source registered
    exact Option.some.inj (isSource.symm.trans here) ▸ same
  · rw [reaches.descends.config]
    exact validate_of_start started

/-- The left side of the join is weighed at its first attempt; its set is cheap unless listed. -/
theorem everyKind_weighs
    : ∃ first source set,
        Session.start "job" everyKind .standard = .ok first
        ∧ first.sources.get? "db:left" = some source
        ∧ set.key = "db:left"
        ∧ costlySides.costOf (.user "db" "left") > first.config.joinThreshold
        ∧ ¬ Statistics.empty.costOf (.user "db" "left") > first.config.joinThreshold
        ∧ first.Weighs source set := by
  have evaluated : (Session.start "job" everyKind .standard).toOption.any (fun first =>
      (first.sources.get? "db:left").isSome
        && decide (costlySides.costOf (.user "db" "left") > first.config.joinThreshold)
        && decide (¬ Statistics.empty.costOf (.user "db" "left") > first.config.joinThreshold))
        = true := by
    decide +kernel
  obtain ⟨first, started, evaluated⟩ := Except.toOption_any_iff.mp evaluated
  simp only [Bool.and_eq_true, decide_eq_true_eq] at evaluated
  obtain ⟨⟨listed, costly⟩, cheap⟩ := evaluated
  obtain ⟨source, registered⟩ := Option.isSome_iff_exists.mp listed
  obtain ⟨set, -, named, weighs⟩ := weighs_of_run started [] .here registered
  exact ⟨first, source, set, started, registered, named (Graph.named_ofLists _ _), costly, cheap,
    weighs⟩

end DataflowPlan.Session
