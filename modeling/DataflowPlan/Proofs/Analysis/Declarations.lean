import DataflowPlan.Proofs.Analysis.JoinStages

/-! What the stages of one pipeline need to be declared. The intermediate sets that a pipeline
declares are those that its stages write and combine into, each as often as it is used, and what it
reads on the way or leaves for later pipelines is among them.
-/

namespace DataflowPlan

namespace Stage

/-- The intermediate set that the stage writes. -/
def transientSink? (stage : Stage) : Option SetId :=
  stage.sink?.filter SetId.isIntermediate

/-- The set that the stage combines into before its data is shuffled. -/
def combiner? : Stage → Option SetId
  | .tupleSet s => s.combiner
  | .aggregation _ | .broadcastBuild _ | .partitionedBuild _ => none

/-- The sets that have to be declared for the stage. -/
def transients (stage : Stage) : List SetId :=
  stage.transientSink?.toList ++ stage.combiner?.toList

@[simp]
theorem transients_tupleSet (s : TupleSetStage)
    : (tupleSet s).transients
        = (if s.sink.isIntermediate then [s.sink] else []) ++ s.combiner.toList := by
  cases transient : s.sink.isIntermediate <;>
    simp [transients, transientSink?, sink?, combiner?, Option.filter, transient]

@[simp]
theorem transients_aggregation (s : AggregationStage)
    : (aggregation s).transients = if s.sink.isIntermediate then [s.sink] else [] := by
  cases transient : s.sink.isIntermediate <;>
    simp [transients, transientSink?, sink?, combiner?, Option.filter, transient]

/-- The stage reads the set, writes it, or combines into it. -/
inductive Uses (stage : Stage) (set : SetId) : Prop
  | reads (source : stage.source = set)
  | writes (sink : stage.sink? = some set)
  | combines (combiner : stage.combiner? = some set)

end Stage

/-- The transients of stages are their intermediate sinks together with their combiners. -/
theorem flatMap_transients_perm (stages : List Stage)
    : (stages.flatMap Stage.transients).Perm
        (stages.filterMap Stage.transientSink? ++ stages.filterMap Stage.combiner?) := by
  induction stages with
  | nil => exact .nil
  | cons stage rest ih =>
      have split : ∀ f : Stage → Option SetId,
          (stage :: rest).filterMap f = (f stage).toList ++ rest.filterMap f := by
        intro f
        cases made : f stage <;> simp [made]
      rw [List.flatMap_cons, split, split, Stage.transients]
      refine List.perm_iff_count.mpr fun set => ?_
      have inner := List.perm_iff_count.mp ih set
      simp only [List.count_append] at inner ⊢
      omega

/-- The placement declares its sink if that is intermediate, and nothing otherwise. -/
def Placement.Exact (place : Placement) : Prop :=
  place.declared = if place.sink.isIntermediate then [place.sink] else []

/-- A set that a computation names is not declared. -/
theorem exact_of_sinkSet {c : Computation} {sink : SetId} (names : c.sinkSet = .ok sink)
    : Placement.Exact ⟨sink, [], []⟩ := by
  have user := Computation.user_of_set? (Computation.set?_of_sinkSet names)
  simp [Placement.Exact, SetId.isIntermediate, user]

namespace View

variable {v : View} {next : StageId} {draft : TupleSetDraft} {prev id : NodeId}
  {segment : Segment} {path : List NodeId} {hashSet : String} {c : Computation}
  {place : Placement} {stage : TupleSetStage}

/-- The segment declares what its stages write for the job and combine into, and nothing else. They
read what the draft starts from or what the segment declares, and an intermediate set that later
pipelines start from is declared as well.
-/
structure Declares (draft : TupleSetDraft) (segment : Segment) : Prop where
  exact : segment.intermediateSets.Perm (segment.stages.flatMap Stage.transients)
  reads
    : ∀ stage ∈ segment.stages,
        draft.source = some stage.source ∨ stage.source ∈ segment.intermediateSets
  source
    : ∀ id set,
        segment.newSource = some (id, set) →
          set.isIntermediate = true → set ∈ segment.intermediateSets

@[simp]
theorem isIntermediate_jobSet (v : View) (id : NodeId) (suffix : String) (pageSize : Nat)
    : (v.jobSet id suffix pageSize).isIntermediate = true := rfl

-----------------------------------------------------------------------------------------------
-- Endings
-----------------------------------------------------------------------------------------------

theorem placement_exact (placed : v.placement id c = .ok place)
    : place.Exact := by
  rcases placement_eq_ok placed with ⟨-, names, none, -⟩ | ⟨-, sink, declared, -⟩
  · rw [Placement.Exact, none]
    exact exact_of_sinkSet names
  · simp [Placement.Exact, declared, sink]

theorem aggregatePlacement_exact {materialized : Bool}
    (placed : v.aggregatePlacement id c = .ok (place, materialized))
    : place.Exact := by
  cases aggregatePlacement_eq_ok placed with
  | unread none names => exact exact_of_sinkSet names
  | kept one keeps names => exact exact_of_sinkSet names
  | handed one unkept => rfl
  | shared several own => exact placement_exact own

/-- The page size that the output of a partition is given is the one it is declared with. -/
theorem partitionPlacement_exact (placed : v.partitionPlacement id c = .ok place)
    : place.Exact := by
  rcases partitionPlacement_eq_ok placed with ⟨-, _, names, rfl⟩ | ⟨-, own, kept, rfl⟩
  · exact exact_of_sinkSet names
  · have exact := placement_exact kept
    rcases placement_eq_ok kept with ⟨-, names, none, -⟩ | ⟨-, sink, declared, -⟩
    · have user := Computation.user_of_set? (Computation.set?_of_sinkSet names)
      simp [Placement.Exact, none, SetId.withPageSize, SetId.isIntermediate, user]
    · have same : own.sink.withPageSize v.config.pageSize = own.sink := by rw [sink]; rfl
      simp only [same]
      exact exact

/-- A pipeline that ends in one stage declares the place of its output. -/
theorem declares_one (exact : place.Exact) (source : draft.source = some stage.source)
    (sink : stage.sink = place.sink) (combiner : stage.combiner = none)
    (newSource : Option (NodeId × SetId)) (changes : List Change)
    (new : ∀ id set, newSource = some (id, set) → set = place.sink)
    : Declares draft ⟨[.tupleSet stage], place.declared, newSource, changes⟩ := by
  rw [Placement.Exact] at exact
  refine ⟨?_, ?_, ?_⟩
  · simp [exact, sink, combiner]
  · intro other member
    rw [List.mem_singleton.mp member]
    exact .inl source
  · intro id set made transient
    obtain rfl := new id set made
    simp [exact, transient]

theorem output_declares (plain : draft.combiner = none)
    (made : v.output next draft prev id = .ok segment)
    : Declares draft segment := by
  obtain ⟨c, sink, stage, -, names, finished, rfl⟩ := output_eq_ok made
  have source : draft.source = some stage.source := finished.source
  have sink := (Option.some.inj finished.sink).symm
  exact declares_one (exact_of_sinkSet names) source sink (finished.combiner.trans plain) none
    [] (by simp)

theorem materialize_declares (plain : draft.combiner = none)
    (made : v.materialize next draft prev id = .ok segment)
    : Declares draft segment := by
  obtain ⟨c, place, stage, -, placed, finished, rfl⟩ := materialize_eq_ok made
  have source : draft.source = some stage.source := finished.source
  have sink := (Option.some.inj finished.sink).symm
  refine declares_one (placement_exact placed) source sink (finished.combiner.trans plain) _ _ ?_
  rintro _ _ ⟨⟩
  rfl

theorem partition_declares (plain : draft.combiner = none)
    (made : v.partition next draft prev id = .ok segment)
    : Declares draft segment := by
  obtain ⟨c, place, stage, -, placed, finished, rfl⟩ := partition_eq_ok made
  have source : draft.source = some stage.source := finished.source
  have sink := (Option.some.inj finished.sink).symm
  refine declares_one (partitionPlacement_exact placed) source sink
    (finished.combiner.trans plain) _ _ fun id set new => ?_
  split at new
  · exact (Prod.mk.inj (Option.some.inj new)).2.symm
  · simp at new

/-- The data that is shuffled and its combiner are declared behind the place of the aggregate. -/
theorem aggregate_declares (made : v.aggregate next draft prev id = .ok segment)
    : Declares draft segment := by
  obtain ⟨c, place, materialized, shuffle, merge, -, placed, finished, rfl, rfl⟩ :=
    aggregate_eq_ok made
  have exact := aggregatePlacement_exact placed
  rw [Placement.Exact] at exact
  have source : draft.source = some shuffle.source := finished.source
  have sink : shuffle.sink = v.jobSet id "_aggregationData" v.config.shufflePageSize :=
    (Option.some.inj finished.sink).symm
  have shuffled : shuffle.sink.isIntermediate = true := by simp [sink]
  have combiner : shuffle.combiner = if c.usesCombiner then
      some (v.jobSet id "_combinerData" v.config.shufflePageSize) else none := finished.combiner
  rw [← sink, ← combiner]
  refine ⟨?_, ?_, ?_⟩
  · refine List.perm_iff_count.mpr fun set => ?_
    simp only [List.flatMap_cons, List.flatMap_nil, Stage.transients_tupleSet,
      Stage.transients_aggregation, shuffled, if_true, ← exact, List.count_append,
      List.count_nil]
    omega
  · intro stage member
    rcases List.mem_pair.mp member with rfl | rfl
    · exact .inl source
    · exact .inr (by simp [Stage.source])
  · intro id set new transient
    dsimp only at new
    split at new
    · obtain ⟨rfl, rfl⟩ := Prod.mk.inj (Option.some.inj new)
      simp [exact, transient]
    · simp at new

/-- The data that a hash table is built of is declared. -/
theorem joinBuild_declares (plain : draft.combiner = none)
    (made : v.joinBuild next draft prev id = .ok segment)
    : Declares draft segment := by
  obtain ⟨c, stage, -, finished, rfl⟩ := joinBuild_eq_ok made
  have source : (v.buildDraft next draft prev id c).source = draft.source := by
    unfold buildDraft
    cases v.strategyFor draft <;> rfl
  have combiner : (v.buildDraft next draft prev id c).combiner = draft.combiner := by
    unfold buildDraft
    cases v.strategyFor draft <;> rfl
  have sink : (v.buildDraft next draft prev id c).sink
      = some (v.jobSet id (buildSuffix (v.strategyFor draft)) v.config.broadcastPageSize) := by
    unfold buildDraft
    cases v.strategyFor draft <;> rfl
  have data := Option.some.inj (finished.sink.symm.trans sink)
  have build : ∀ name,
      (v.buildStage next draft prev id c name).source
          = v.jobSet id (buildSuffix (v.strategyFor draft)) v.config.broadcastPageSize
        ∧ (v.buildStage next draft prev id c name).transients = [] := by
    intro name
    unfold buildStage
    cases v.strategyFor draft <;> exact ⟨rfl, rfl⟩
  obtain ⟨reads, writesNothing⟩ := build stage.sourceTupleSet
  refine ⟨?_, ?_, by simp [buildSegment]⟩
  · simp [buildSegment, writesNothing, finished.combiner, combiner, plain, data]
  · intro other member
    rcases List.mem_pair.mp member with rfl | rfl
    · exact .inl (source ▸ finished.source)
    · exact .inr (List.mem_singleton.mpr reads)

theorem Ends.declares (ending : v.Ends next draft prev id segment)
    (plain : draft.combiner = none)
    : Declares draft segment := by
  cases ending with
  | output kind unread made => exact output_declares plain made
  | materialize kind shared made => exact materialize_declares plain made
  | aggregate kind made => exact aggregate_declares made
  | partition kind made => exact partition_declares plain made
  | build kind read accepted made => exact joinBuild_declares plain made

-----------------------------------------------------------------------------------------------
-- Pipelines
-----------------------------------------------------------------------------------------------

/-- A crossing combines nothing, declares what it splits the data into, and goes on from there. -/
theorem crossing_declares {strategy : JoinStrategy} {crossing : Crossing}
    (plain : draft.combiner = none)
    (crossed : v.crossing next draft prev id strategy hashSet = .ok crossing)
    : crossing.draft.combiner = none
      ∧ (Declares crossing.draft segment → Declares draft (segment.across crossing)) := by
  cases crosses_of_crossing crossed with
  | broadcast => exact ⟨plain, fun later => ⟨later.exact, later.reads, later.source⟩⟩
  | @split c stage found finished sink splits =>
      have combiner : stage.combiner = none := finished.combiner.trans plain
      have transient : stage.sink.isIntermediate = true := by simp [sink]
      refine ⟨rfl, fun later => ⟨?_, ?_, ?_⟩⟩
      · simpa [Segment.across, combiner, transient] using later.exact
      · intro other member
        rcases List.mem_cons.mp member with rfl | behind
        · exact .inl finished.source
        · refine .inr ?_
          rcases later.reads other behind with split | declared
          · rw [← Option.some.inj split, ← sink]
            exact List.mem_cons_self
          · exact List.mem_cons_of_mem _ declared
      · intro id set new made
        exact List.mem_cons_of_mem _ (later.source id set new made)

/-- A pipeline declares what its stages need.
Witness: induction on the pipeline, along which no draft combines before its end.
-/
theorem Pipeline.declares (pipeline : v.Pipeline next draft prev path segment)
    (plain : draft.combiner = none)
    : Declares draft segment := by
  induction pipeline with
  | ends ending => exact ending.declares plain
  | pass kind active rest ih =>
      have later := ih plain
      exact ⟨later.exact, later.reads, later.source⟩
  | cross started crossed active rest ih =>
      obtain ⟨still, declares⟩ := crossing_declares plain crossed
      exact declares (ih still)
  | gather started crossed shared made =>
      obtain ⟨still, declares⟩ := crossing_declares plain crossed
      exact declares (materialize_declares still made)

end View

end DataflowPlan
