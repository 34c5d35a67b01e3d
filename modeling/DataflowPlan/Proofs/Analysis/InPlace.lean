import DataflowPlan.Proofs.Analysis.Ending
import DataflowPlan.Proofs.Analysis.Pipeline
import DataflowPlan.Proofs.Arena.Node

/-! Analysis in place: each change is made as soon as it is decided on, and stays made whatever
comes after it. It still comes to what an analysis that only proposes its changes comes to, as
nothing is refused and nothing fails once something is changed.
-/

namespace DataflowPlan

/-- What is worked on in place, and the stage identifier that is not taken yet. -/
structure Bench where
  topology : Topology
  next : StageId

/-- Work in place. What was changed before a failure stays changed. -/
def InPlace (α : Type) : Type :=
  Bench → Except Error α × Bench

/-- Changes of nodes can trade places if they do so at every node. -/
theorem Arena.modify_comm (arena : Arena) (id other : NodeId)
    {change more : PhysicalNode → PhysicalNode}
    (commute : ∀ node, change (more node) = more (change node))
    : (arena.modify other more).modify id change = (arena.modify id change).modify other more := by
  refine congrArg Arena.mk (List.ext_getElem? fun index => ?_)
  simp only [Arena.modify, List.getElem?_modify]
  cases arena.nodes[index]? <;> by_cases here : id.index = index <;>
    by_cases there : other.index = index <;> simp [here, there, commute]

namespace InPlace

variable {α β : Type}

instance : Monad InPlace where
  pure a := fun bench => (.ok a, bench)
  bind work rest := fun bench =>
    match work bench with
    | (.ok a, bench) => rest a bench
    | (.error error, bench) => (.error error, bench)

@[simp]
theorem pure_run (a : α) (bench : Bench) : (pure a : InPlace α) bench = (.ok a, bench) := rfl

@[simp]
theorem bind_run (work : InPlace α) (rest : α → InPlace β) (bench : Bench)
    : (work >>= rest) bench
        = match work bench with
          | (.ok a, bench) => rest a bench
          | (.error error, bench) => (.error error, bench) := rfl

/-- A decision changes nothing. -/
def decide (decision : Except Error α) : InPlace α :=
  fun bench => (decision, bench)

/-- All that can be seen now. -/
def look (v : View) : InPlace View :=
  fun bench => (.ok { v with topology := bench.topology }, bench)

def takeId : InPlace StageId :=
  fun bench => (.ok bench.next, { bench with next := bench.next.next })

def change (c : Change) : InPlace Unit :=
  fun bench => (.ok (), { bench with topology := c.apply bench.topology })

def changeAll : List Change → InPlace Unit
  | [] => pure ()
  | c :: rest => do
    change c
    changeAll rest

def makeSource (id : NodeId) (set : SetId) : InPlace Unit :=
  fun bench =>
    (.ok (),
      { bench with
        topology :=
          { bench.topology with arena := bench.topology.arena.setSource id set } })

end InPlace

/-- The segment once its changes are made. -/
def Segment.made (segment : Segment) : Segment :=
  { segment with changes := [] }

namespace View

/-- The shuffling of a pipeline by key for its aggregate. -/
def shuffleDraft (v : View) (next : StageId) (draft : TupleSetDraft) (prev id : NodeId)
    (c : Computation) : TupleSetDraft :=
  { draft.close next (v.outputOf prev) c intermediateType
      (v.jobSet id "_aggregationData" v.config.shufflePageSize) with
    combiner :=
      if c.usesCombiner then some (v.jobSet id "_combinerData" v.config.shufflePageSize)
      else none
    repartitioning := true
    collectAsMap := c.collectAsMap
    nodesToCollect := c.nodesToCollect }

/-- The merging of shuffled data into the aggregate. -/
def mergeDraft (v : View) (next : StageId) (id : NodeId) (c : Computation) (sink : SetId)
    (materialized : Bool) : AggregationDraft :=
  { AggregationDraft.ofJob v.jobId with
    stageId := some next
    source := some (v.jobSet id "_aggregationData" v.config.shufflePageSize)
    sink := some sink
    computation := some c.name
    materialize := materialized }

theorem finish_mergeDraft (v : View) (next : StageId) (id : NodeId) (c : Computation)
    (sink : SetId) (materialized : Bool)
    : (v.mergeDraft next id c sink materialized).finish
        = .ok ⟨next, v.jobId, v.jobSet id "_aggregationData" v.config.shufflePageSize, sink,
            c.name, materialized, none, none⟩ := rfl

/-- The segment of an aggregate. -/
def aggregateSegment (v : View) (id : NodeId) (c : Computation) (place : Placement)
    (shuffle : TupleSetStage) (merge : AggregationStage) : Segment :=
  ⟨[.tupleSet shuffle, .aggregation merge],
    place.declared
      ++ [v.jobSet id "_aggregationData" v.config.shufflePageSize]
      ++ (if c.usesCombiner then some (v.jobSet id "_combinerData" v.config.shufflePageSize)
          else none).toList,
    if (v.node id).hasConsumers then some (id, place.sink) else none,
    place.changes⟩

theorem aggregate_eq (v : View) (next : StageId) (draft : TupleSetDraft) (prev id : NodeId)
    : v.aggregate next draft prev id = (do
        let c ← v.computation id
        let (place, materialized) ← v.aggregatePlacement id c
        let shuffle ← (v.shuffleDraft next draft prev id c).finish
        let merge ← (v.mergeDraft next.next id c place.sink materialized).finish
        pure (v.aggregateSegment id c place shuffle merge)) := rfl

/-- The splitting of a pipeline by key into a set. -/
def vectorDraft (v : View) (next : StageId) (draft : TupleSetDraft) (prev : NodeId)
    (c : Computation) (sink : SetId) : TupleSetDraft :=
  { draft.close next (v.outputOf prev) c c.outputType sink with
    repartitioning := true
    repartitionVector := true }

theorem partition_eq (v : View) (next : StageId) (draft : TupleSetDraft) (prev id : NodeId)
    : v.partition next draft prev id = (do
        let c ← v.computation id
        let place ← v.partitionPlacement id c
        let stage ← (v.vectorDraft next draft prev c place.sink).finish
        pure ⟨[.tupleSet stage], place.declared,
          if (v.node id).hasConsumers then some (id, place.sink) else none, place.changes⟩) := by
  unfold partition partitionPlacement
  cases v.computation id with
  | error error => rfl
  | ok c =>
      simp only [Except.ok_bind]
      split
      · cases v.placement id c <;> rfl
      · cases c.sinkSet <;> rfl

end View

-----------------------------------------------------------------------------------------------
-- The analysis
-----------------------------------------------------------------------------------------------

namespace InPlace

/-- The output is placed, and redirected if it is not kept, before the stage is finished. -/
def materialize (v : View) (draft : TupleSetDraft) (prev id : NodeId)
    : InPlace (Option Segment) := do
  let v ← look v
  let c ← decide (v.computation id)
  let place ← decide (v.placement id c)
  changeAll place.changes
  let next ← takeId
  let stage ← decide
    (draft.close next (v.outputOf prev) c c.outputType place.sink).finish
  makeSource id place.sink
  pure (some ⟨[.tupleSet stage], place.declared, some (id, place.sink), []⟩)

def aggregate (v : View) (draft : TupleSetDraft) (prev id : NodeId)
    : InPlace (Option Segment) := do
  let v ← look v
  let c ← decide (v.computation id)
  let (place, materialized) ← decide (v.aggregatePlacement id c)
  changeAll place.changes
  let shuffle ← decide (v.shuffleDraft (← takeId) draft prev id c).finish
  let merge ← decide (v.mergeDraft (← takeId) id c place.sink materialized).finish
  if (v.node id).hasConsumers then makeSource id place.sink
  pure (some (v.aggregateSegment id c place shuffle merge).made)

def partition (v : View) (draft : TupleSetDraft) (prev id : NodeId)
    : InPlace (Option Segment) := do
  let v ← look v
  let c ← decide (v.computation id)
  let place ← decide (v.partitionPlacement id c)
  changeAll place.changes
  let next ← takeId
  let stage ← decide (v.vectorDraft next draft prev c place.sink).finish
  if (v.node id).hasConsumers then makeSource id place.sink
  pure (some ⟨[.tupleSet stage], place.declared,
    if (v.node id).hasConsumers then some (id, place.sink) else none, []⟩)

/-- A pipeline that ends in the set of its computation changes nothing. -/
def output (v : View) (draft : TupleSetDraft) (prev id : NodeId)
    : InPlace (Option Segment) := do
  let v ← look v
  let next ← takeId
  let segment ← decide (v.output next draft prev id)
  pure (some segment)

/-- The join is started once both of its stages are finished. -/
def joinBuild (v : View) (draft : TupleSetDraft) (prev id : NodeId)
    : InPlace (Option Segment) := do
  let v ← look v
  let first ← takeId
  let _ ← takeId
  let segment ← decide (v.joinBuild first draft prev id)
  changeAll segment.changes
  pure (some segment.made)

/-- How an analysis goes on at a node that a pipeline reaches from another one; refused without a
segment.
-/
abbrev Trail := TupleSetDraft → (prev id : NodeId) → InPlace (Option Segment)

/-- On the way back the next consumer is taken off, if the rest was planned. -/
def consuming (id : NodeId) (found : Option Segment) : InPlace (Option Segment) := do
  if found.isSome then change (.consume id)
  pure found

/-- On the way back a stage is put in front of the rest, if that was planned. -/
def preceding (stage : Stage) (data : SetId) (found : Option Segment)
    : InPlace (Option Segment) :=
  pure (found.map fun s =>
    { s with stages := stage :: s.stages, intermediateSets := data :: s.intermediateSets })

def passThrough (v : View) (follow : Trail) (draft : TupleSetDraft) (id : NodeId)
    : InPlace (Option Segment) := do
  let v ← look v
  match (v.node id).active with
  | [] => decide (.error (.violation (.noActiveConsumer (v.outputOf id))))
  | consumer :: _ => do
    let found ← follow (draft.addTupleSet (v.outputOf id)) id consumer
    consuming id found

def joinProbe (v : View) (follow : Trail) (draft : TupleSetDraft) (prev id : NodeId)
    : InPlace (Option Segment) := do
  let v ← look v
  match (v.node id).active with
  | [] => decide (.error (.violation (.noActiveConsumer (v.outputOf id))))
  | [consumer] => follow draft id consumer
  | _ => materialize v draft prev id

def join (v : View) (follow : Trail) (draft : TupleSetDraft) (prev id : NodeId)
    : InPlace (Option Segment) := do
  let v ← look v
  if !(v.node id).hasConsumers then
    decide (.error (.unsupportedSink (v.node id).atomic.computation .join))
  else
    match (v.node id).join?.getD .notStarted with
    | .notStarted => if v.isRefused draft then pure none else joinBuild v draft prev id
    | .started .broadcast hashSet =>
      let output := v.outputOf id
      joinProbe v follow ((draft.addTupleSet output).addProbe output hashSet) prev id
    | .started .hashPartitioned hashSet => do
      let next ← takeId
      let (stage, data, probe) ← decide (v.splitProbe next draft prev id hashSet)
      let found ← joinProbe v follow probe prev id
      preceding stage data found

def follow (v : View) : Nat → Trail
  | 0, _, _, _ => decide (.error (.violation .endless))
  | steps + 1, draft, prev, id => do
    let v ← look v
    match (v.node id).route with
    | .output => output v draft prev id
    | .passThrough => passThrough v (follow v steps) draft id
    | .materialize => materialize v draft prev id
    | .aggregate => aggregate v draft prev id
    | .partition => partition v draft prev id
    | .join => join v (follow v steps) draft prev id

/-- Sends the next consumer of a source to the back. -/
def rotate (source : NodeId) : InPlace Unit :=
  fun bench =>
    (.ok (),
      { bench with
        topology := { bench.topology with arena := bench.topology.arena.rotate source } })

/-- The pipeline from a source to the next consumer, which goes to the back if it is refused. -/
def analyze (v : View) (source : NodeId) : InPlace (Option Segment) := do
  let v ← look v
  match (v.node source).sourceSet with
  | none => decide (.error (.violation (.notASource (v.outputOf source))))
  | some set => do
    let draft : TupleSetDraft :=
      { TupleSetDraft.ofJob v.jobId with
        sourceTupleSet := some (v.outputOf source)
        source := some set }
    let found ← passThrough v (follow v v.topology.arena.size) draft source
    if found.isNone then rotate source
    pure found

-----------------------------------------------------------------------------------------------
-- Agreement
-----------------------------------------------------------------------------------------------

/-- The work comes to what the analysis says: a planned segment is carried out, and a refusal or a
failure has changed nothing.
-/
def Agrees (a : Analysis) (t : Topology) (result : Except Error (Option Segment) × Bench)
    : Prop :=
  match a.verdict with
  | .planned segment => result = (.ok (some segment.made), ⟨segment.apply t, a.reached⟩)
  | .refused => result.1 = .ok none ∧ result.2.topology = t
  | .failed error => result.1 = .error error ∧ result.2.topology = t

variable {v : View} {next : StageId} {draft : TupleSetDraft} {prev id : NodeId}

@[simp]
theorem look_run (v : View) (next : StageId)
    : look v ⟨v.topology, next⟩ = (.ok v, ⟨v.topology, next⟩) := rfl

@[simp]
theorem decide_run (decision : Except Error α) (bench : Bench)
    : decide decision bench = (decision, bench) := rfl

@[simp]
theorem changeAll_run (changes : List Change) (bench : Bench)
    : changeAll changes bench
        = (.ok (), { bench with topology := changes.foldl Change.apply bench.topology }) := by
  induction changes generalizing bench with
  | nil => rfl
  | cons c rest ih =>
      change changeAll rest ⟨c.apply bench.topology, bench.next⟩ = _
      rw [ih]
      rfl

/-- The stage of a pipeline that knows where it starts can be finished, wherever it ends. -/
theorem exists_close (begun : draft.Begun) (next : StageId) (target : String) (c : Computation)
    (outputType : String) (sink : SetId)
    : ∃ stage, (draft.close next target c outputType sink).finish = .ok stage :=
  TupleSetDraft.exists_finish ⟨begun.source, begun.sourceTupleSet⟩ rfl rfl rfl rfl rfl

theorem materialize_agrees (begun : draft.Begun)
    : Agrees (.ofEnding next (v.materialize next draft prev id)) v.topology
        (materialize v draft prev id ⟨v.topology, next⟩) := by
  unfold materialize View.materialize
  cases found : v.computation id with
  | error error => simp [found, Agrees, Analysis.ofEnding]
  | ok c =>
      cases placed : v.placement id c with
      | error error => simp [found, placed, Agrees, Analysis.ofEnding]
      | ok place =>
          obtain ⟨stage, finished⟩ :=
            exists_close begun next (v.outputOf prev) c c.outputType place.sink
          simp [found, placed, finished, takeId, makeSource, Agrees, Analysis.ofEnding,
            Segment.made, Segment.apply, StageId.next, StageId.skip]

theorem aggregate_agrees (begun : draft.Begun)
    : Agrees (.ofEnding next (v.aggregate next draft prev id)) v.topology
        (aggregate v draft prev id ⟨v.topology, next⟩) := by
  rw [View.aggregate_eq]
  unfold aggregate
  cases found : v.computation id with
  | error error => simp [found, Agrees, Analysis.ofEnding]
  | ok c =>
      cases placed : v.aggregatePlacement id c with
      | error error => simp [found, placed, Agrees, Analysis.ofEnding]
      | ok pair =>
          obtain ⟨place, materialized⟩ := pair
          obtain ⟨shuffle, shuffled⟩ : ∃ stage,
              (v.shuffleDraft next draft prev id c).finish = .ok stage :=
            TupleSetDraft.exists_finish ⟨begun.source, begun.sourceTupleSet⟩ rfl rfl rfl rfl rfl
          by_cases read : (v.node id).hasConsumers = true <;>
            simp [found, placed, shuffled, View.finish_mergeDraft, read, takeId, makeSource, Agrees,
              Analysis.ofEnding, View.aggregateSegment, Segment.made, Segment.apply, StageId.next,
              StageId.skip]

theorem partition_agrees (begun : draft.Begun)
    : Agrees (.ofEnding next (v.partition next draft prev id)) v.topology
        (partition v draft prev id ⟨v.topology, next⟩) := by
  rw [View.partition_eq]
  unfold partition
  cases found : v.computation id with
  | error error => simp [found, Agrees, Analysis.ofEnding]
  | ok c =>
      cases placed : v.partitionPlacement id c with
      | error error => simp [found, placed, Agrees, Analysis.ofEnding]
      | ok place =>
          obtain ⟨stage, finished⟩ : ∃ stage,
              (v.vectorDraft next draft prev c place.sink).finish = .ok stage :=
            TupleSetDraft.exists_finish ⟨begun.source, begun.sourceTupleSet⟩ rfl rfl rfl rfl rfl
          by_cases read : (v.node id).hasConsumers = true <;>
            simp [found, placed, finished, read, takeId, makeSource, Agrees, Analysis.ofEnding,
              Segment.made, Segment.apply, StageId.next, StageId.skip]

theorem output_agrees
    : Agrees (.ofEnding next (v.output next draft prev id)) v.topology
        (output v draft prev id ⟨v.topology, next⟩) := by
  unfold output
  cases made : v.output next draft prev id with
  | error error => simp [made, takeId, Agrees, Analysis.ofEnding]
  | ok segment =>
      obtain ⟨c, sink, stage, -, -, -, rfl⟩ := View.output_eq_ok made
      simp [made, takeId, Agrees, Analysis.ofEnding, Segment.made, Segment.apply, StageId.next,
        StageId.skip]

theorem joinBuild_agrees
    : Agrees (.ofEnding next (v.joinBuild next draft prev id)) v.topology
        (joinBuild v draft prev id ⟨v.topology, next⟩) := by
  unfold joinBuild
  cases made : v.joinBuild next draft prev id with
  | error error => simp [made, takeId, Agrees, Analysis.ofEnding]
  | ok segment =>
      obtain ⟨c, stage, -, -, rfl⟩ := View.joinBuild_eq_ok made
      simp [made, takeId, Agrees, Analysis.ofEnding, View.buildSegment, Segment.made,
        Segment.apply, StageId.next, StageId.skip]

-----------------------------------------------------------------------------------------------
-- Along a pipeline
-----------------------------------------------------------------------------------------------

/-- On the way back a consumer can be taken off before or after the node where the pipeline ends
becomes a source.
-/
theorem apply_through (segment : Segment) (t : Topology) (p : NodeId)
    : (segment.through p).apply t = (Change.consume p).apply (segment.apply t) := by
  unfold Segment.apply Segment.through
  rw [List.foldl_append]
  cases segment.newSource with
  | none => rfl
  | some pair =>
      obtain ⟨node, set⟩ := pair
      simp only [List.foldl_cons, List.foldl_nil, Change.apply, Arena.consumeFront,
        Arena.setSource]
      exact congrArg (Topology.mk _) (Arena.modify_comm _ _ _ fun _ => rfl)

theorem Agrees.consuming {a : Analysis} {t : Topology} {work : InPlace (Option Segment)}
    {bench : Bench} (agrees : Agrees a t (work bench)) (id : NodeId)
    : Agrees (a.consuming id) t ((work >>= InPlace.consuming id) bench) := by
  obtain ⟨reached, verdict⟩ := a
  rw [bind_run]
  cases verdict with
  | planned segment =>
      have planned : work bench = _ := agrees
      simp only [planned, Agrees, Analysis.consuming, Analysis.mapSegment, InPlace.consuming,
        Option.isSome_some, if_true, bind_run, pure_run, change, Prod.mk.injEq, Except.ok.injEq,
        Option.some.injEq, Bench.mk.injEq, and_true]
      exact ⟨rfl, (apply_through segment t id).symm⟩
  | refused =>
      generalize work bench = result at agrees
      obtain ⟨outcome, after⟩ := result
      obtain ⟨rfl, rfl⟩ : outcome = _ ∧ after.topology = t := agrees
      exact ⟨rfl, rfl⟩
  | failed error =>
      generalize work bench = result at agrees
      obtain ⟨outcome, after⟩ := result
      obtain ⟨rfl, rfl⟩ : outcome = _ ∧ after.topology = t := agrees
      exact ⟨rfl, rfl⟩

theorem Agrees.preceding {a : Analysis} {t : Topology} {work : InPlace (Option Segment)}
    {bench : Bench} (agrees : Agrees a t (work bench)) (stage : Stage) (data : SetId)
    : Agrees (a.after stage data) t ((work >>= InPlace.preceding stage data) bench) := by
  obtain ⟨reached, verdict⟩ := a
  rw [bind_run]
  generalize work bench = result at agrees
  obtain ⟨outcome, after⟩ := result
  cases verdict with
  | planned segment =>
      obtain ⟨rfl, rfl⟩ : outcome = _ ∧ after = _ := Prod.mk.inj agrees
      rfl
  | refused =>
      obtain ⟨rfl, rfl⟩ : outcome = _ ∧ after.topology = t := agrees
      exact ⟨rfl, rfl⟩
  | failed error =>
      obtain ⟨rfl, rfl⟩ : outcome = _ ∧ after.topology = t := agrees
      exact ⟨rfl, rfl⟩

/-- Both ways to go on come to the same wherever they set out from. -/
def TrailAgrees (v : View) (follow : View.Continuation) (trail : Trail) : Prop :=
  ∀ next draft prev id,
    draft.Begun →
      Agrees (follow next draft prev id) v.topology (trail draft prev id ⟨v.topology, next⟩)

variable {continuation : View.Continuation} {trail : Trail}

theorem passThrough_agrees (trails : TrailAgrees v continuation trail) (begun : draft.Begun)
    : Agrees (v.passThrough continuation next draft id) v.topology
        (passThrough v trail draft id ⟨v.topology, next⟩) := by
  unfold passThrough View.passThrough
  cases active : (v.node id).active with
  | nil => simp [active, Agrees]
  | cons consumer rest =>
      have rest := trails next (draft.addTupleSet (v.outputOf id)) id consumer
        ⟨begun.source, begun.sourceTupleSet⟩
      simp only [bind_run, look_run, active]
      exact rest.consuming id

theorem joinProbe_agrees (trails : TrailAgrees v continuation trail) (begun : draft.Begun)
    : Agrees (v.joinProbe continuation next draft prev id) v.topology
        (joinProbe v trail draft prev id ⟨v.topology, next⟩) := by
  unfold joinProbe View.joinProbe
  cases active : (v.node id).active with
  | nil => simp [active, Agrees]
  | cons consumer others =>
      cases others with
      | nil =>
          simp only [bind_run, look_run, active]
          exact trails next draft id consumer begun
      | cons other rest =>
          simp only [bind_run, look_run, active]
          exact materialize_agrees begun

theorem join_agrees (trails : TrailAgrees v continuation trail) (begun : draft.Begun)
    : Agrees (v.join continuation next draft prev id) v.topology
        (join v trail draft prev id ⟨v.topology, next⟩) := by
  unfold join View.join
  simp only [bind_run, look_run]
  by_cases read : (v.node id).hasConsumers = true
  · simp only [read, Bool.not_true, Bool.false_eq_true, if_false]
    cases state : (v.node id).join?.getD .notStarted with
    | notStarted =>
        by_cases refused : v.isRefused draft = true
        · simp [refused, Agrees]
        · simp only [refused, Bool.false_eq_true, if_false]
          exact joinBuild_agrees
    | started strategy hashSet =>
        cases strategy with
        | broadcast => exact joinProbe_agrees trails ⟨begun.source, begun.sourceTupleSet⟩
        | hashPartitioned =>
            cases split : v.splitProbe next draft prev id hashSet with
            | error error => simp [takeId, split, Agrees]
            | ok parts =>
                obtain ⟨stage, data, probe⟩ := parts
                obtain ⟨c, closed, -, -, -, rfl, rfl⟩ := View.splitProbe_eq_ok split
                have begins : (v.splitDraft draft id hashSet).Begun :=
                  ⟨⟨_, rfl⟩, begun.sourceTupleSet⟩
                simp only [bind_run, takeId, decide_run, split]
                exact (joinProbe_agrees trails begins).preceding _ _
  · simp [read, Agrees]

/-- Following a pipeline in place comes to what the analysis says.
Witness: induction on the nodes that it may still come to.
-/
theorem follow_agrees (v : View) (steps : Nat)
    : TrailAgrees v (v.follow steps) (follow v steps) := by
  induction steps with
  | zero =>
      intro next draft prev id begun
      simp [follow, View.follow, Agrees]
  | succ steps ih =>
      intro next draft prev id begun
      simp only [follow, View.follow, bind_run, look_run]
      cases (v.node id).route with
      | output => exact output_agrees
      | passThrough => exact passThrough_agrees ih begun
      | materialize => exact materialize_agrees begun
      | aggregate => exact aggregate_agrees begun
      | partition => exact partition_agrees begun
      | join => exact join_agrees ih begun

/-- Analysis in place leaves what the attempt is to leave: a planned segment is carried out, a
refusal sends the next consumer of the source to the back, and a failure leaves all as it was.
-/
theorem analyze_agrees (v : View) (source : NodeId) (next : StageId)
    : (analyze v source ⟨v.topology, next⟩).1
          = (match (v.analyze source next).verdict with
              | .planned segment => .ok (some segment.made)
              | .refused => .ok none
              | .failed error => .error error)
        ∧ (analyze v source ⟨v.topology, next⟩).2.topology
          = (v.analyze source next).apply source v.topology
        ∧ ∀ segment,
            (v.analyze source next).verdict = .planned segment →
              (analyze v source ⟨v.topology, next⟩).2.next
                = (v.analyze source next).reached := by
  unfold analyze View.analyze
  simp only [bind_run, look_run]
  cases isSource : (v.node source).sourceSet with
  | none => simp [Analysis.apply]
  | some set =>
      have begins
          : { TupleSetDraft.ofJob v.jobId with
              sourceTupleSet := some (v.outputOf source)
              source := some set : TupleSetDraft }.Begun :=
        ⟨⟨set, rfl⟩, ⟨_, rfl⟩⟩
      have agrees := @passThrough_agrees v next _ source _ _
        (follow_agrees v v.topology.arena.size) begins
      simp only [bind_run]
      generalize View.passThrough v _ next _ source = a at agrees
      generalize passThrough v _ _ source _ = result at agrees
      obtain ⟨reached, verdict⟩ := a
      obtain ⟨outcome, bench⟩ := result
      cases verdict with
      | planned segment =>
          obtain ⟨rfl, rfl⟩ : outcome = _ ∧ bench = _ := Prod.mk.inj agrees
          simp [Analysis.apply]
      | refused =>
          obtain ⟨rfl, same⟩ : outcome = _ ∧ bench.topology = _ := agrees
          simp [Analysis.apply, rotate, same]
      | failed error =>
          obtain ⟨rfl, same⟩ : outcome = _ ∧ bench.topology = _ := agrees
          simp [Analysis.apply, same]

end InPlace

end DataflowPlan
