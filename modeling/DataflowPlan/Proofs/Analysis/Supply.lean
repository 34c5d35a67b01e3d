import DataflowPlan.Proofs.Analysis.JoinStages
import DataflowPlan.Proofs.Cluster.Holdings

/-! What the stages of a pipeline live on: where each of them finds what it reads, what is dropped
on the way, and what is left for later pipelines to start from.
-/

namespace DataflowPlan.View

open LocalCluster (consumed?)

variable {v : View} {next : StageId} {draft : TupleSetDraft} {prev id : NodeId}
  {segment : Segment} {path : List NodeId} {hashSet : String} {set : SetId}

/-- Each stage of the segment reads what the draft starts from or a set that the segment declares,
and what later pipelines can start from is written by one of them.
-/
structure Supplies (draft : TupleSetDraft) (segment : Segment) : Prop where
  reads
    : ∀ stage ∈ segment.stages,
        draft.source = some stage.source
        ∨ ∃ set ∈ segment.intermediateSets, set.key = stage.source.key
  leaves
    : ∀ id set,
        segment.newSource = some (id, set) → ∃ stage ∈ segment.stages, stage.Writes set.key

/-- A segment of one stage, which writes what is read on. -/
theorem supplies_one {stage : TupleSetStage} {sets : List SetId}
    {newSource : Option (NodeId × SetId)} {changes : List Change}
    (source : draft.source = some stage.source)
    (writes : ∀ id set, newSource = some (id, set) → set = stage.sink)
    : Supplies draft ⟨[.tupleSet stage], sets, newSource, changes⟩ := by
  refine ⟨?_, ?_⟩
  · intro other member
    rw [List.mem_singleton.mp member]
    exact .inl source
  · intro id set new
    exact ⟨.tupleSet stage, by simp, stage.sink, rfl, congrArg SetId.key (writes id set new).symm⟩

theorem materialize_supplies (made : v.materialize next draft prev id = .ok segment)
    : Supplies draft segment := by
  obtain ⟨c, place, stage, -, -, finished, rfl⟩ := materialize_eq_ok made
  refine supplies_one finished.source ?_
  rintro _ _ ⟨⟩
  exact Option.some.inj finished.sink

theorem partition_supplies (made : v.partition next draft prev id = .ok segment)
    : Supplies draft segment := by
  obtain ⟨c, place, stage, -, -, finished, rfl⟩ := partition_eq_ok made
  refine supplies_one finished.source fun id set new => ?_
  split at new
  · obtain ⟨rfl, rfl⟩ := Prod.mk.inj (Option.some.inj new)
    exact Option.some.inj finished.sink
  · simp at new

theorem aggregate_supplies (made : v.aggregate next draft prev id = .ok segment)
    : Supplies draft segment := by
  obtain ⟨c, place, materialized, shuffle, merge, -, -, finished, rfl, rfl⟩ :=
    aggregate_eq_ok made
  refine ⟨?_, fun id set new => ?_⟩
  · intro stage member
    rcases List.mem_pair.mp member with rfl | rfl
    · exact .inl finished.source
    · exact .inr ⟨v.jobSet id "_aggregationData" v.config.shufflePageSize, by simp, rfl⟩
  · dsimp only at new
    split at new
    · obtain ⟨rfl, rfl⟩ := Prod.mk.inj (Option.some.inj new)
      exact ⟨_, List.mem_cons_of_mem _ (List.mem_singleton_self _), place.sink, rfl, rfl⟩
    · simp at new

/-- The hash table is built of the data that the building side declares. -/
theorem joinBuild_supplies (made : v.joinBuild next draft prev id = .ok segment)
    : Supplies draft segment := by
  obtain ⟨c, stage, -, finished, rfl⟩ := joinBuild_eq_ok made
  have source : draft.source = some stage.source := by
    rw [← finished.source]
    unfold buildDraft
    cases v.strategyFor draft <;> rfl
  refine ⟨?_, by simp [buildSegment]⟩
  intro other member
  rcases List.mem_pair.mp member with rfl | rfl
  · exact .inl source
  · refine .inr ⟨_, List.mem_singleton_self _, ?_⟩
    unfold buildStage
    cases v.strategyFor draft <;> rfl

theorem Ends.supplies (ending : v.Ends next draft prev id segment)
    : Supplies draft segment := by
  cases ending with
  | output kind unread made =>
      obtain ⟨c, sink, stage, -, -, finished, rfl⟩ := output_eq_ok made
      exact supplies_one finished.source (by simp)
  | materialize kind shared made => exact materialize_supplies made
  | aggregate kind made => exact aggregate_supplies made
  | partition kind made => exact partition_supplies made
  | build kind read accepted made => exact joinBuild_supplies made

/-- A crossing that splits the data leaves it to what follows, and declares it. -/
theorem Crosses.supplies {strategy : JoinStrategy} {c : Crossing}
    (crosses : v.Crosses next draft prev id hashSet strategy c) (later : Supplies c.draft segment)
    : Supplies draft (segment.across c) := by
  cases crosses with
  | broadcast => exact ⟨later.reads, later.leaves⟩
  | @split c stage found finished sink splits =>
      have carries := carries_of_finished finished rfl rfl
      refine ⟨?_, ?_⟩
      · intro other member
        rcases List.mem_cons.mp member with rfl | behind
        · exact .inl carries.source
        · refine .inr ?_
          rcases later.reads other behind with split | ⟨set, declared, same⟩
          · refine ⟨stage.sink, List.mem_cons_self, congrArg SetId.key ?_⟩
            exact sink.trans (Option.some.inj split)
          · exact ⟨set, List.mem_cons_of_mem _ declared, same⟩
      · intro id set new
        obtain ⟨other, member, writes⟩ := later.leaves id set new
        exact ⟨other, List.mem_cons_of_mem _ member, writes⟩

/-- A pipeline supplies its stages.
Witness: induction on the pipeline, whose draft starts from the same set until its data is split.
-/
theorem Pipeline.supplies (pipeline : v.Pipeline next draft prev path segment)
    : Supplies draft segment := by
  induction pipeline with
  | ends ending => exact ending.supplies
  | pass kind active rest ih => exact ⟨ih.reads, ih.leaves⟩
  | cross started crossed active rest ih => exact (crosses_of_crossing crossed).supplies ih
  | gather started crossed shared made =>
      exact (crosses_of_crossing crossed).supplies (materialize_supplies made)

/-- Of the stages of a pipeline the first one alone drops a set: the one that it starts from, if
that is the hash table of an aggregate.
-/
theorem Pipeline.drops (pipeline : v.Pipeline next draft prev path segment)
    (source : draft.source = some set)
    : (∀ stage ∈ segment.stages,
          ∀ dropped,
            consumed? stage = some dropped → dropped = set ∧ set.isAggregationResult = true)
      ∧ (set.isAggregationResult = true →
          ∃ stage ∈ segment.stages, consumed? stage = some set) := by
  obtain ⟨first, rest, whole, begins⟩ := pipeline.begins
  have reads : set = first.source := Option.some.inj (source.symm.trans begins.source)
  rw [whole]
  refine ⟨?_, fun table => ⟨.tupleSet first, by simp, ?_⟩⟩
  · intro stage member dropped drops
    rcases List.mem_cons.mp member with rfl | later
    · simp only [consumed?, begins.drops, ← reads] at drops
      split at drops
      · next table => exact ⟨(Option.some.inj drops).symm, table⟩
      · simp at drops
    · cases stage with
      | tupleSet other => simp [consumed?, begins.keeps other later] at drops
      | aggregation | broadcastBuild | partitionedBuild => simp [consumed?] at drops
  · simp [consumed?, begins.drops, ← reads, table]

end DataflowPlan.View
