import DataflowPlan.Proofs.Analysis.Arrival
import DataflowPlan.Proofs.Analysis.Building
import DataflowPlan.Proofs.Float

/-! Weighing: what the cost of a source's set decides. The pipeline carries that cost on through all
that is split by key on its way, so the join that it ends in is built as the cost asks for, and a
source above the threshold is not refused.
-/

namespace DataflowPlan

namespace PlannerConfig

/-- How a side of the cost is joined. -/
def strategyAt (config : PlannerConfig) (cost : Float) : JoinStrategy :=
  if cost > config.joinThreshold then .hashPartitioned else .broadcast

variable {config : PlannerConfig}

theorem strategyAt_eq_hashPartitioned {cost : Float}
    : config.strategyAt cost = .hashPartitioned ↔ cost > config.joinThreshold := by
  unfold strategyAt
  split <;> simp [*]

/-- The threshold of settings that are accepted is a number. -/
theorem isNaN_joinThreshold (valid : config.validate = .ok ())
    : config.joinThreshold.isNaN = false := by
  unfold validate at valid
  split at valid
  · simp at valid
  · split at valid
    · simp at valid
    · next positive =>
        have above : config.joinThreshold > 0.0 := by simpa using positive
        exact (Floats.isNaN_of_lt above).2

/-- Costs are alike if both are above the threshold or both are not, as they are numbers. -/
theorem weighsAlike_of_above (valid : config.validate = .ok ()) {stats other : Statistics}
    {set : SetId}
    (above
      : stats.costOf set > config.joinThreshold ↔ other.costOf set > config.joinThreshold)
    : config.WeighsAlike (stats.costOf set) (other.costOf set) := by
  have threshold := isNaN_joinThreshold valid
  have number : ∀ s : Statistics, (s.costOf set).isNaN = false := fun s => Floats.isNaN_ofNat _
  refine ⟨above, ?_⟩
  rw [Floats.le_iff_not_lt threshold (number stats), Floats.le_iff_not_lt threshold (number other)]
  exact not_congr above

end PlannerConfig

namespace View

variable {v : View} {next reached : StageId} {draft : TupleSetDraft} {prev id source : NodeId}
  {set : SetId} {segment : Segment} {strategy : JoinStrategy} {hashSet : String}

/-- The joins that the segment starts are built as the cost of the set asks for. -/
def StartsFor (v : View) (set : SetId) (segment : Segment) : Prop :=
  ∀ p name strategy hashSet,
    .startJoin p name strategy hashSet ∈ segment.changes →
      strategy = v.config.strategyAt (v.stats.costOf set)

theorem strategyFor_eq (weighs : draft.costSet = some set)
    : v.strategyFor draft = v.config.strategyAt (v.stats.costOf set) := by
  rw [strategyFor, draftCost, weighs]
  rfl

namespace StartsFor

theorem of_placed (placed : v.Placed id segment) : v.StartsFor set segment := by
  intro p name strategy hashSet member
  obtain ⟨_, same⟩ := placed.redirects _ member
  simp at same

theorem through (starts : v.StartsFor set segment) (node : NodeId)
    : v.StartsFor set (segment.through node) := by
  intro p name strategy hashSet member
  rcases List.mem_append.mp member with before | last
  · exact starts p name strategy hashSet before
  · simp at last

end StartsFor

theorem Ends.startsFor (ending : v.Ends next draft prev id segment)
    (weighs : draft.costSet = some set)
    : v.StartsFor set segment := by
  rcases (Closes.ends ending).changes with ⟨join, -⟩ | ⟨-, placed⟩
  · cases ending with
    | output kind | materialize kind | aggregate kind | partition kind => simp [kind] at join
    | build kind read accepted made =>
        obtain ⟨c, stage, -, -, rfl⟩ := joinBuild_eq_ok made
        intro p name strategy hashSet member
        obtain ⟨-, -, rfl, -⟩ := Change.startJoin.inj (List.mem_singleton.mp member)
        exact strategyFor_eq weighs
  · exact .of_placed placed

theorem costSet_of_crossing {c : Crossing} (weighs : draft.costSet = some set)
    (crossed : v.crossing next draft prev id strategy hashSet = .ok c)
    : c.draft.costSet = some set := by
  rcases crossing_cases crossed with ⟨-, here⟩ | ⟨_, -, -, here⟩
  · rw [here, TupleSetDraft.costSet_addProbe, TupleSetDraft.costSet_addTupleSet, weighs]
  · rw [here, splitDraft, TupleSetDraft.costSet, weighs]
    rfl

/-- A pipeline builds the join that it ends in as the cost of what it started from asks for.
Witness: induction on the pipeline; every draft on the way is weighed by that set.
-/
theorem Pipeline.startsFor {path : List NodeId}
    (pipeline : v.Pipeline next draft prev path segment) (weighs : draft.costSet = some set)
    : v.StartsFor set segment := by
  induction pipeline with
  | ends ending => exact ending.startsFor weighs
  | pass kind active rest ih =>
      exact (ih ((TupleSetDraft.costSet_addTupleSet _).trans weighs)).through _
  | cross started crossed active rest ih => exact ih (costSet_of_crossing weighs crossed)
  | @gather next draft prev id strategy hashSet c segment started crossed shared made =>
      have starts : v.StartsFor set segment := .of_placed (placed_of_materialize made)
      exact starts

section Analyze

variable (isSource : (v.node source).sourceSet = some set)
  (planned : v.analyze source next = ⟨reached, .planned segment⟩)

include isSource planned

theorem startsFor_of_analyze : v.StartsFor set segment := by
  obtain ⟨init, last, own, inner, -, here, pipeline, rfl⟩ := pipeline_of_analyze planned
  obtain rfl := Option.some.inj (isSource.symm.trans here)
  exact (pipeline.startsFor rfl).through source

/-- The stages build tables as the cost of the source's set asks for.
Witness: they build the tables of the joins that are started.
-/
theorem isPartitionedBuild_of_analyze {stage : Stage} (member : stage ∈ segment.stages)
    (build : stage.isBuild = true)
    : stage.isPartitionedBuild = true
        ↔ v.config.strategyAt (v.stats.costOf set) = .hashPartitioned := by
  have started : ∀ entry, stage.building? = some entry →
      v.config.strategyAt (v.stats.costOf set) = entry.2 := by
    intro entry builds
    have listed := List.mem_filterMap.mpr ⟨stage, member, builds⟩
    rw [← buildings, buildsStarted_of_analyze planned] at listed
    obtain ⟨change, inSegment, same⟩ := List.mem_filterMap.mp listed
    cases change with
    | consume node | redirect computation database name => simp [Change.building?] at same
    | startJoin p name strategy hashSet =>
        obtain rfl := Option.some.inj same
        exact (startsFor_of_analyze isSource planned p name strategy hashSet inSegment).symm
  cases stage with
  | tupleSet s | aggregation s => simp [Stage.isBuild] at build
  | broadcastBuild s => simp [started _ rfl, Stage.isPartitionedBuild]
  | partitionedBuild s => simp [started _ rfl, Stage.isPartitionedBuild]

end Analyze

end View

end DataflowPlan
