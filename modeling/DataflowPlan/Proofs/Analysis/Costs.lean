import DataflowPlan.Proofs.Analysis.Ending

/-! What an analysis sees of statistics. On its whole way it weighs one set, the one that it starts
from, and that only against the threshold: data that is split by key counts as what it was split
from.
-/

namespace DataflowPlan

/-- The two costs compare alike with the threshold. -/
structure PlannerConfig.WeighsAlike (config : PlannerConfig) (one other : Float) : Prop where
  above : one > config.joinThreshold ↔ other > config.joinThreshold
  below : one ≤ config.joinThreshold ↔ other ≤ config.joinThreshold

theorem PlannerConfig.WeighsAlike.of_eq {config : PlannerConfig} {one other : Float}
    (same : one = other)
    : config.WeighsAlike one other :=
  same ▸ ⟨.rfl, .rfl⟩

namespace TupleSetDraft

variable {draft : TupleSetDraft} {set : SetId}

theorem costSet_addTupleSet (name : String) : (draft.addTupleSet name).costSet = draft.costSet :=
  rfl

theorem costSet_addProbe (output hashSet : String)
    : (draft.addProbe output hashSet).costSet = draft.costSet :=
  rfl

end TupleSetDraft

namespace View

/-- The view with other statistics. -/
def withStats (v : View) (stats : Statistics) : View :=
  { v with stats }

variable {v : View} {stats : Statistics} {draft : TupleSetDraft} {set : SetId} {next : StageId}
  {prev id : NodeId}

section Settings

variable (v stats)

@[simp]
theorem node_withStats : (v.withStats stats).node = v.node := rfl

@[simp]
theorem outputOf_withStats : (v.withStats stats).outputOf = v.outputOf := rfl

@[simp]
theorem output_withStats : (v.withStats stats).output = v.output := rfl

@[simp]
theorem materialize_withStats : (v.withStats stats).materialize = v.materialize := rfl

@[simp]
theorem aggregate_withStats : (v.withStats stats).aggregate = v.aggregate := rfl

@[simp]
theorem partition_withStats : (v.withStats stats).partition = v.partition := rfl

@[simp]
theorem splitProbe_withStats : (v.withStats stats).splitProbe = v.splitProbe := rfl

end Settings

/-- The split data of a join's probing side costs what the probing side does. -/
theorem costSet_of_splitProbe {hashSet : String} {stage : Stage} {data : SetId}
    {probe : TupleSetDraft} (weighs : draft.costSet = some set)
    (split : v.splitProbe next draft prev id hashSet = .ok (stage, data, probe))
    : probe.costSet = some set := by
  obtain ⟨-, -, -, -, -, -, rfl⟩ := splitProbe_eq_ok split
  rw [splitDraft, TupleSetDraft.costSet, weighs]
  rfl

section Alike

variable (alike : v.config.WeighsAlike (v.stats.costOf set) (stats.costOf set))

include alike

theorem strategyFor_withStats (weighs : draft.costSet = some set)
    : (v.withStats stats).strategyFor draft = v.strategyFor draft := by
  have above := alike.above
  simp only [strategyFor, draftCost, weighs, withStats, above]

theorem isRefused_withStats (weighs : draft.costSet = some set)
    : (v.withStats stats).isRefused draft = v.isRefused draft := by
  have below := alike.below
  simp only [isRefused, draftCost, weighs, withStats, below]

theorem joinBuild_withStats (weighs : draft.costSet = some set) (next : StageId)
    (prev id : NodeId)
    : (v.withStats stats).joinBuild next draft prev id = v.joinBuild next draft prev id := by
  unfold joinBuild
  rw [strategyFor_withStats alike weighs]
  rfl

variable {follow other : Continuation}
  (same
    : ∀ next (draft : TupleSetDraft) prev id,
        draft.costSet = some set → other next draft prev id = follow next draft prev id)

include same

omit alike in
theorem passThrough_withStats (weighs : draft.costSet = some set) (next : StageId) (id : NodeId)
    : (v.withStats stats).passThrough other next draft id = v.passThrough follow next draft id := by
  unfold passThrough
  rw [node_withStats, outputOf_withStats]
  cases (v.node id).active with
  | nil => rfl
  | cons consumer rest =>
      dsimp only
      rw [same next _ id consumer ((TupleSetDraft.costSet_addTupleSet _).trans weighs)]

omit alike in
theorem joinProbe_withStats (weighs : draft.costSet = some set) (next : StageId)
    (prev id : NodeId)
    : (v.withStats stats).joinProbe other next draft prev id
        = v.joinProbe follow next draft prev id := by
  unfold joinProbe
  rw [node_withStats, outputOf_withStats, materialize_withStats]
  match (v.node id).active with
  | [] => rfl
  | [consumer] => exact same next draft id consumer weighs
  | _ :: _ :: _ => rfl

theorem join_withStats (weighs : draft.costSet = some set) (next : StageId) (prev id : NodeId)
    : (v.withStats stats).join other next draft prev id = v.join follow next draft prev id := by
  unfold join
  rw [node_withStats, outputOf_withStats, splitProbe_withStats,
    isRefused_withStats alike weighs, joinBuild_withStats alike weighs]
  split
  · rfl
  · cases (v.node id).join?.getD .notStarted with
    | notStarted => rfl
    | started strategy hashSet =>
        cases strategy with
        | broadcast =>
            refine joinProbe_withStats same ?_ _ _ _
            rw [TupleSetDraft.costSet_addProbe, TupleSetDraft.costSet_addTupleSet, weighs]
        | hashPartitioned =>
            dsimp only
            cases split : v.splitProbe next draft prev id hashSet with
            | error error => rfl
            | ok parts =>
                dsimp only
                rw [joinProbe_withStats same (costSet_of_splitProbe weighs split)]

omit same

/-- What becomes of a pipeline is the same with both statistics.
Witness: induction on the nodes that it may come to; every draft on the way is weighed by the set.
-/
theorem follow_withStats (weighs : draft.costSet = some set) (steps : Nat) (next : StageId)
    (prev id : NodeId)
    : (v.withStats stats).follow steps next draft prev id = v.follow steps next draft prev id := by
  induction steps generalizing next draft prev id with
  | zero => rfl
  | succ steps ih =>
      have same : ∀ next (draft : TupleSetDraft) prev id, draft.costSet = some set →
          (v.withStats stats).follow steps next draft prev id
            = v.follow steps next draft prev id :=
        fun next draft prev id weighs => ih weighs next prev id
      rw [follow, follow, node_withStats, output_withStats, materialize_withStats,
        aggregate_withStats, partition_withStats, passThrough_withStats same weighs,
        join_withStats alike same weighs]

end Alike

/-- Statistics that weigh the source's set alike lead to one and the same analysis. -/
theorem analyze_withStats (source : NodeId) (next : StageId)
    (alike
      : ∀ set,
          (v.node source).sourceSet = some set →
            v.config.WeighsAlike (v.stats.costOf set) (stats.costOf set))
    : (v.withStats stats).analyze source next = v.analyze source next := by
  unfold analyze
  rw [node_withStats, outputOf_withStats]
  cases isSource : (v.node source).sourceSet with
  | none => rfl
  | some set =>
      have weighs := alike set isSource
      refine passThrough_withStats (fun next draft prev id costs => ?_) rfl _ _
      exact follow_withStats weighs costs _ _ _ _

end View

end DataflowPlan
