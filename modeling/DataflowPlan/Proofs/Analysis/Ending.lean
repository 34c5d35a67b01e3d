import DataflowPlan.Analysis
import DataflowPlan.Proofs.Except

/-! Where a pipeline ends, read backwards: what each kind of ending found, and the stages that it
finished from the pipeline's draft.
-/

namespace DataflowPlan

theorem need_eq_ok {α : Type} {kind : StageKind} {field : String} {value : Option α} {a : α}
    : need kind field value = .ok a ↔ value = some a := by
  cases value <;> simp [need]

namespace PhysicalNode

theorem hasConsumers_iff {node : PhysicalNode} : node.hasConsumers = true ↔ node.active ≠ [] := by
  simp [hasConsumers]

theorem hasConsumers_of_shared {node : PhysicalNode} (shared : 2 ≤ node.active.length)
    : node.hasConsumers = true := by
  refine hasConsumers_iff.mpr fun none => ?_
  simp [none] at shared

end PhysicalNode

namespace Computation

theorem set?_of_sinkSet {c : Computation} {sink : SetId} (names : c.sinkSet = .ok sink)
    : c.set? = some sink := by
  unfold sinkSet at names
  cases named : c.set? with
  | none => simp [named] at names
  | some set => simpa [named] using names

theorem set?_of_sourceSet {c : Computation} {set : SetId} (reads : c.sourceSet = .ok set)
    : c.set? = some set := by
  unfold sourceSet at reads
  cases named : c.set? with
  | none => simp [named] at reads
  | some own =>
      cases readable : c.kind.isReadable with
      | false => simp [named, readable] at reads
      | true => simpa [named, readable] using reads

/-- The set that a computation names is the user's. -/
theorem user_of_set? {c : Computation} {set : SetId} (names : c.set? = some set)
    : set.kind = .user := by
  unfold set? at names
  split at names
  · obtain rfl := Option.some.inj names
    rfl
  · simp at names

theorem plain_of_set? {c : Computation} {set : SetId} (names : c.set? = some set)
    : set.isAggregationResult = false := by
  unfold set? at names
  split at names
  · obtain rfl := Option.some.inj names
    rfl
  · simp at names

end Computation

namespace TupleSetDraft

/-- The stage has what the draft gathered. -/
structure Finished (d : TupleSetDraft) (stage : TupleSetStage) : Prop where
  id : d.stageId = some stage.id
  jobId : stage.jobId = d.jobId
  source : d.source = some stage.source
  sourceTupleSet : d.sourceTupleSet = some stage.sourceTupleSet
  tupleSets : stage.tupleSets = d.tupleSets
  targetTupleSet : d.targetTupleSet = some stage.targetTupleSet
  targetComputation : d.targetComputation = some stage.targetComputation
  sink : d.sink = some stage.sink
  combiner : stage.combiner = d.combiner
  probes : stage.probes = if d.isProbing then some d.probes else none
  broadcasting : stage.broadcasting = d.broadcasting
  repartitioning : stage.repartitioning = d.repartitioning
  repartitionJoin : stage.repartitionJoin = d.repartitionJoin
  repartitionVector : stage.repartitionVector = d.repartitionVector
  needRemoveInput : stage.needRemoveInput = stage.source.isAggregationResult
  inputAggHashOut : stage.inputAggHashOut = stage.source.isAggregationResult

theorem finished_of_finish {d : TupleSetDraft} {stage : TupleSetStage}
    (done : d.finish = .ok stage)
    : d.Finished stage := by
  simp only [finish, Except.bind_eq_ok, need_eq_ok, Except.pure_eq, Except.ok.injEq] at done
  obtain ⟨source, hasSource, id, hasId, start, hasStart, target, hasTarget, computation,
    hasComputation, outputType, -, sink, hasSink, rfl⟩ := done
  exact ⟨hasId, rfl, hasSource, hasStart, rfl, hasTarget, hasComputation, hasSink, rfl, rfl, rfl,
    rfl, rfl, rfl, rfl, rfl⟩

/-- The pipeline knows where it starts. -/
structure Begun (d : TupleSetDraft) : Prop where
  source : ∃ set, d.source = some set
  sourceTupleSet : ∃ name, d.sourceTupleSet = some name

/-- A draft that lacks nothing can be finished. -/
theorem exists_finish {d : TupleSetDraft} (begun : d.Begun) (id : d.stageId.isSome)
    (target : d.targetTupleSet.isSome) (computation : d.targetComputation.isSome)
    (outputType : d.outputType.isSome) (sink : d.sink.isSome)
    : ∃ stage, d.finish = .ok stage := by
  obtain ⟨source, hasSource⟩ := begun.source
  obtain ⟨start, hasStart⟩ := begun.sourceTupleSet
  obtain ⟨_, hasId⟩ := Option.isSome_iff_exists.mp id
  obtain ⟨_, hasTarget⟩ := Option.isSome_iff_exists.mp target
  obtain ⟨_, hasComputation⟩ := Option.isSome_iff_exists.mp computation
  obtain ⟨_, hasType⟩ := Option.isSome_iff_exists.mp outputType
  obtain ⟨_, hasSink⟩ := Option.isSome_iff_exists.mp sink
  simp [finish, need, hasSource, hasStart, hasId, hasTarget, hasComputation, hasType, hasSink]

end TupleSetDraft

namespace View

variable {v : View} {next : StageId} {draft : TupleSetDraft} {prev id : NodeId}

theorem output_eq_ok {segment : Segment} (made : v.output next draft prev id = .ok segment)
    : ∃ c sink stage,
        v.computation id = .ok c
        ∧ c.sinkSet = .ok sink
        ∧ (draft.close next (v.outputOf prev) c c.outputType sink).Finished stage
        ∧ segment = ⟨[.tupleSet stage], [], none, []⟩ := by
  simp only [output, Except.bind_eq_ok, Except.pure_eq, Except.ok.injEq] at made
  obtain ⟨c, found, sink, names, stage, done, rfl⟩ := made
  exact ⟨c, sink, stage, found, names, TupleSetDraft.finished_of_finish done, rfl⟩

/-- A computation keeps its output in the set that it names, or is redirected to one of the
job's.
-/
theorem placement_eq_ok {c : Computation} {place : Placement}
    (placed : v.placement id c = .ok place)
    : (c.materializeOutput = true ∧ c.sinkSet = .ok place.sink ∧ place.declared = []
          ∧ place.changes = [])
      ∨ (c.materializeOutput = false ∧ place.sink = v.jobSet id "" v.config.pageSize
          ∧ place.declared = [place.sink]
          ∧ place.changes = [.redirect c.name v.jobId (v.outputOf id)]) := by
  by_cases kept : c.materializeOutput = true
  · simp only [placement, kept, if_true, Except.bind_eq_ok, Except.pure_eq, Except.ok.injEq]
      at placed
    obtain ⟨sink, names, rfl⟩ := placed
    exact .inl ⟨kept, names, rfl, rfl⟩
  · simp only [placement, kept, if_false, Except.bind_eq_ok, Except.pure_eq, Except.ok.injEq,
      Bool.false_eq_true] at placed
    obtain ⟨_, -, rfl⟩ := placed
    exact .inr ⟨by simpa using kept, rfl, rfl, rfl⟩

theorem materialize_eq_ok {segment : Segment}
    (made : v.materialize next draft prev id = .ok segment)
    : ∃ c place stage,
        v.computation id = .ok c
        ∧ v.placement id c = .ok place
        ∧ (draft.close next (v.outputOf prev) c c.outputType place.sink).Finished stage
        ∧ segment
          = ⟨[.tupleSet stage], place.declared, some (id, place.sink), place.changes⟩ := by
  simp only [materialize, Except.bind_eq_ok, Except.pure_eq, Except.ok.injEq] at made
  obtain ⟨c, found, place, placed, stage, done, rfl⟩ := made
  exact ⟨c, place, stage, found, placed, TupleSetDraft.finished_of_finish done, rfl⟩

/-- How an aggregate comes to its place: nothing reads it, one consumer reads the set that it is
kept in or takes over its hash table, or several read where it is materialized.
-/
inductive AggregatePlaced (v : View) (id : NodeId) (c : Computation) : Placement → Bool → Prop
  | unread {sink} (none : (v.node id).active = []) (names : c.sinkSet = .ok sink)
    : v.AggregatePlaced id c ⟨sink, [], []⟩ true
  | kept {sink consumer} (one : (v.node id).active = [consumer])
    (keeps : c.materializeOutput = true) (names : c.sinkSet = .ok sink)
    : v.AggregatePlaced id c ⟨sink, [], []⟩ true
  | handed {consumer} (one : (v.node id).active = [consumer])
    (unkept : c.materializeOutput = false)
    : v.AggregatePlaced id c
        ⟨.aggregationResult v.jobId (v.outputOf id ++ "_aggregationResult"), [], []⟩ false
  | shared {place} (several : 2 ≤ (v.node id).active.length)
    (placed : v.placement id c = .ok place)
    : v.AggregatePlaced id c place true

theorem aggregatePlacement_eq_ok {c : Computation} {place : Placement} {materialized : Bool}
    (placed : v.aggregatePlacement id c = .ok (place, materialized))
    : v.AggregatePlaced id c place materialized := by
  unfold aggregatePlacement at placed
  rcases active : (v.node id).active with _ | ⟨first, _ | ⟨second, rest⟩⟩
  · simp only [active, Except.bind_eq_ok, Except.pure_eq, Except.ok.injEq, Prod.mk.injEq] at placed
    obtain ⟨sink, names, rfl, rfl⟩ := placed
    exact .unread active names
  · cases keeps : c.materializeOutput with
    | true =>
        simp only [active, keeps, Except.bind_eq_ok, Except.pure_eq, Except.ok.injEq,
          Prod.mk.injEq] at placed
        obtain ⟨sink, names, rfl, rfl⟩ := placed
        exact .kept active keeps names
    | false =>
        simp only [active, keeps, Except.pure_eq, Except.ok.injEq, Prod.mk.injEq] at placed
        obtain ⟨rfl, rfl⟩ := placed
        exact .handed active keeps
  · simp only [active, Except.bind_eq_ok, Except.pure_eq, Except.ok.injEq, Prod.mk.injEq] at placed
    obtain ⟨own, kept, rfl, rfl⟩ := placed
    exact .shared (by simp [active]) kept

theorem aggregate_eq_ok {segment : Segment} (made : v.aggregate next draft prev id = .ok segment)
    : ∃ c place materialized shuffle merge,
        v.computation id = .ok c
        ∧ v.aggregatePlacement id c = .ok (place, materialized)
        ∧ TupleSetDraft.Finished
            { draft.close next (v.outputOf prev) c intermediateType
                (v.jobSet id "_aggregationData" v.config.shufflePageSize) with
              combiner :=
                if c.usesCombiner then
                  some (v.jobSet id "_combinerData" v.config.shufflePageSize)
                else none
              repartitioning := true
              collectAsMap := c.collectAsMap
              nodesToCollect := c.nodesToCollect }
            shuffle
        ∧ merge
          = ⟨next.next, v.jobId, v.jobSet id "_aggregationData" v.config.shufflePageSize,
              place.sink, c.name, materialized, none, none⟩
        ∧ segment
          = ⟨[.tupleSet shuffle, .aggregation merge],
              place.declared
                ++ [v.jobSet id "_aggregationData" v.config.shufflePageSize]
                ++ (if c.usesCombiner then
                      some (v.jobSet id "_combinerData" v.config.shufflePageSize)
                    else none).toList,
              if (v.node id).hasConsumers then some (id, place.sink) else none,
              place.changes⟩ := by
  simp only [aggregate, Except.bind_eq_ok, Except.pure_eq, Except.ok.injEq] at made
  obtain ⟨c, found, ⟨place, materialized⟩, placed, shuffle, done, merge, merged, rfl⟩ := made
  refine ⟨c, place, materialized, shuffle, merge, found, placed,
    TupleSetDraft.finished_of_finish done, ?_, rfl⟩
  simpa [AggregationDraft.finish, AggregationDraft.ofJob, need] using merged.symm

/-- Where the output of a partition goes: to the set that the computation names, or if it is read
on, to where it is materialized.
-/
def partitionPlacement (v : View) (id : NodeId) (c : Computation) : Except Error Placement := do
  if (v.node id).hasConsumers then do
    let place ← v.placement id c
    pure { place with sink := place.sink.withPageSize v.config.pageSize }
  else do
    let sink ← c.sinkSet
    pure ⟨sink, [], []⟩

/-- A partition comes to the set that its computation names if nothing reads it, and otherwise to
its placement, with the page size of the job's sets.
-/
theorem partitionPlacement_eq_ok {c : Computation} {place : Placement}
    (placed : v.partitionPlacement id c = .ok place)
    : ((v.node id).active = [] ∧ ∃ sink, c.sinkSet = .ok sink ∧ place = ⟨sink, [], []⟩)
      ∨ ((v.node id).active ≠ []
          ∧ ∃ own,
              v.placement id c = .ok own
              ∧ place = { own with sink := own.sink.withPageSize v.config.pageSize }) := by
  unfold partitionPlacement at placed
  split at placed
  · next read =>
      simp only [Except.bind_eq_ok, Except.pure_eq, Except.ok.injEq] at placed
      obtain ⟨own, kept, rfl⟩ := placed
      exact .inr ⟨PhysicalNode.hasConsumers_iff.mp read, own, kept, rfl⟩
  · next unread =>
      simp only [Except.bind_eq_ok, Except.pure_eq, Except.ok.injEq] at placed
      obtain ⟨sink, names, rfl⟩ := placed
      refine .inl ⟨?_, sink, names, rfl⟩
      simpa [PhysicalNode.hasConsumers_iff] using unread

theorem partition_eq_ok {segment : Segment} (made : v.partition next draft prev id = .ok segment)
    : ∃ c place stage,
        v.computation id = .ok c
        ∧ v.partitionPlacement id c = .ok place
        ∧ TupleSetDraft.Finished
            { draft.close next (v.outputOf prev) c c.outputType place.sink with
              repartitioning := true
              repartitionVector := true }
            stage
        ∧ segment
          = ⟨[.tupleSet stage], place.declared,
              if (v.node id).hasConsumers then some (id, place.sink) else none,
              place.changes⟩ := by
  by_cases read : (v.node id).hasConsumers = true
  · simp only [partition, read, if_true, Except.bind_eq_ok, Except.pure_eq, Except.ok.injEq]
      at made
    obtain ⟨c, found, kept, placed, _, rfl, stage, done, rfl⟩ := made
    refine ⟨c, _, stage, found, ?_, TupleSetDraft.finished_of_finish done, by rw [if_pos read]⟩
    simp [partitionPlacement, read, placed]
  · simp only [partition, read, if_false, Except.bind_eq_ok, Except.pure_eq, Except.ok.injEq,
      Bool.false_eq_true] at made
    obtain ⟨c, found, sink, names, _, rfl, stage, done, rfl⟩ := made
    refine ⟨c, _, stage, found, ?_, TupleSetDraft.finished_of_finish done, by rw [if_neg read]⟩
    simp [partitionPlacement, read, names]

/-- The building side's data, as the join's strategy asks for it. -/
def buildDraft (v : View) (next : StageId) (draft : TupleSetDraft) (prev id : NodeId)
    (c : Computation) : TupleSetDraft :=
  let data := v.jobSet id (buildSuffix (v.strategyFor draft)) v.config.broadcastPageSize
  let draft' := draft.close next (v.outputOf prev) c intermediateType data
  match v.strategyFor draft with
  | .hashPartitioned => { draft' with repartitioning := true, repartitionJoin := true }
  | .broadcast => { draft' with broadcasting := true }

/-- The building of the hash table from the building side's data. -/
def buildStage (v : View) (next : StageId) (draft : TupleSetDraft) (prev id : NodeId)
    (c : Computation) (sourceTupleSet : String) : Stage :=
  let data := v.jobSet id (buildSuffix (v.strategyFor draft)) v.config.broadcastPageSize
  match v.strategyFor draft with
  | .hashPartitioned =>
    .partitionedBuild
      ⟨next.next, v.jobId, data, data.key, sourceTupleSet, v.outputOf prev, c.name, none, none⟩
  | .broadcast =>
    .broadcastBuild
      ⟨next.next, v.jobId, data, data.key, sourceTupleSet, v.outputOf prev, c.name, none⟩

/-- The segment of a building side. -/
def buildSegment (v : View) (next : StageId) (draft : TupleSetDraft) (prev id : NodeId)
    (c : Computation) (stage : TupleSetStage) : Segment :=
  let data := v.jobSet id (buildSuffix (v.strategyFor draft)) v.config.broadcastPageSize
  ⟨[.tupleSet stage, v.buildStage next draft prev id c stage.sourceTupleSet], [data], none,
    [.startJoin id c.name (v.strategyFor draft) data.key]⟩

/-- A join is built when its computation is known, the pipeline has a beginning, and the graph
knows the computation by its own name.
-/
theorem joinBuild_eq (v : View) (next : StageId) (draft : TupleSetDraft) (prev id : NodeId)
    : v.joinBuild next draft prev id = (do
        let c ← v.computation id
        let stage ← (v.buildDraft next draft prev id c).finish
        let _ ← v.topology.graph.computation c.name
        pure (v.buildSegment next draft prev id c stage)) := by
  unfold joinBuild buildDraft buildSegment buildStage
  cases v.strategyFor draft <;> rfl

theorem joinBuild_eq_ok {segment : Segment} (made : v.joinBuild next draft prev id = .ok segment)
    : ∃ c stage,
        v.computation id = .ok c
        ∧ (v.buildDraft next draft prev id c).Finished stage
        ∧ segment = v.buildSegment next draft prev id c stage := by
  rw [joinBuild_eq] at made
  simp only [Except.bind_eq_ok, Except.pure_eq, Except.ok.injEq] at made
  obtain ⟨c, found, stage, done, _, -, rfl⟩ := made
  exact ⟨c, stage, found, TupleSetDraft.finished_of_finish done, rfl⟩

/-- What the probing side of a join leaves before it goes on, and the draft it goes on with. -/
structure Crossing where
  stages : List Stage
  sets : List SetId
  next : StageId
  draft : TupleSetDraft

/-- The probing side of a join whose hash table is built. -/
def crossing (v : View) (next : StageId) (draft : TupleSetDraft) (prev id : NodeId)
    (strategy : JoinStrategy) (hashSet : String) : Except Error Crossing :=
  match strategy with
  | .broadcast =>
    .ok ⟨[], [], next, (draft.addTupleSet (v.outputOf id)).addProbe (v.outputOf id) hashSet⟩
  | .hashPartitioned => do
    let (stage, data, probe) ← v.splitProbe next draft prev id hashSet
    pure ⟨[stage], [data], next.next, probe⟩

/-- The draft of a pipeline that starts from the probing side's data once that is split by key. -/
def splitDraft (v : View) (draft : TupleSetDraft) (id : NodeId) (hashSet : String)
    : TupleSetDraft :=
  { TupleSetDraft.ofJob v.jobId with
    sourceTupleSet := draft.sourceTupleSet
    source := some (v.jobSet id "_probeRepartitionData" v.config.broadcastPageSize)
    costBasis := draft.costSet
    tupleSets := draft.tupleSets.getLast?.toList ++ [v.outputOf id]
    probes := (∅ : Table String).insert (v.outputOf id) hashSet }

theorem splitProbe_eq_ok {hashSet : String} {stage : Stage} {data : SetId}
    {probe : TupleSetDraft}
    (split : v.splitProbe next draft prev id hashSet = .ok (stage, data, probe))
    : ∃ c closed,
        v.computation id = .ok c
        ∧ TupleSetDraft.Finished
            { draft.close next (v.outputOf prev) c intermediateType data with
              repartitioning := true
              repartitionJoin := true }
            closed
        ∧ stage = .tupleSet closed
        ∧ data = v.jobSet id "_probeRepartitionData" v.config.broadcastPageSize
        ∧ probe = v.splitDraft draft id hashSet := by
  simp only [splitProbe, Except.bind_eq_ok, Except.pure_eq, Except.ok.injEq, Prod.mk.injEq]
    at split
  obtain ⟨c, found, closed, done, rfl, rfl, rfl⟩ := split
  exact ⟨c, closed, found, TupleSetDraft.finished_of_finish done, rfl, rfl, rfl⟩

/-- What a crossing leaves, and what it goes on with: the draft that probes the join as well, or one
that starts from the data that a stage has split by key.
-/
inductive Crosses (v : View) (next : StageId) (draft : TupleSetDraft) (prev id : NodeId)
    (hashSet : String)
    : JoinStrategy → Crossing → Prop
  | broadcast
    : v.Crosses next draft prev id hashSet .broadcast
        ⟨[], [], next, (draft.addTupleSet (v.outputOf id)).addProbe (v.outputOf id) hashSet⟩
  | split {c : Computation} {stage : TupleSetStage} (found : v.computation id = .ok c)
    (finished
      : TupleSetDraft.Finished
          { draft.close next (v.outputOf prev) c intermediateType stage.sink with
            repartitioning := true
            repartitionJoin := true }
          stage)
    (sink : stage.sink = v.jobSet id "_probeRepartitionData" v.config.broadcastPageSize)
    (splits
      : v.splitProbe next draft prev id hashSet
          = .ok (.tupleSet stage, stage.sink, v.splitDraft draft id hashSet))
    : v.Crosses next draft prev id hashSet .hashPartitioned
        ⟨[.tupleSet stage], [stage.sink], next.next, v.splitDraft draft id hashSet⟩

theorem crosses_of_crossing {strategy : JoinStrategy} {hashSet : String} {c : Crossing}
    (crossed : v.crossing next draft prev id strategy hashSet = .ok c)
    : v.Crosses next draft prev id hashSet strategy c := by
  cases strategy with
  | broadcast =>
      simp only [crossing, Except.ok.injEq] at crossed
      subst crossed
      exact .broadcast
  | hashPartitioned =>
      simp only [crossing, Except.bind_eq_ok, Except.pure_eq, Except.ok.injEq] at crossed
      obtain ⟨⟨stage, data, probe⟩, splits, rfl⟩ := crossed
      obtain ⟨c, closed, found, finished, rfl, rfl, rfl⟩ := splitProbe_eq_ok splits
      have sink := Option.some.inj finished.sink
      rw [sink] at finished splits ⊢
      exact .split found finished sink.symm splits

end View

end DataflowPlan
