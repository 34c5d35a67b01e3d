import DataflowPlan.Arena.Route
import DataflowPlan.Config
import DataflowPlan.Stage.Draft

/-!
Analysis: from a source along the next consumers to the node where the pipeline ends, and the
stages that carry it out. An analysis changes nothing: what it proposes to change is part of a
planned segment, so a refused or failed one leaves no trace.
-/

namespace DataflowPlan

/-- The logical graph with the arena of its nodes. -/
structure Topology where
  graph : Graph
  arena : Arena
deriving DecidableEq, Inhabited

-----------------------------------------------------------------------------------------------
-- What an analysis leads to

/-- A change that goes with a planned segment. -/
inductive Change
  /-- The node's next consumer is part of a pipeline now. -/
  | consume (node : NodeId)
  /-- The computation's output goes to a set of the job's. -/
  | redirect (computation database name : String)
  /-- The join's first side builds its hash table. -/
  | startJoin (node : NodeId) (computation : String) (strategy : JoinStrategy) (hashSet : String)
deriving DecidableEq

def Change.apply (t : Topology) : Change → Topology
  | .consume node => { t with arena := t.arena.consumeFront node }
  | .redirect computation database name =>
    { t with graph := t.graph.modifyComputation computation (·.setOutput database name) }
  | .startJoin node computation strategy hashSet =>
    { graph := t.graph.modifyComputation computation (·.setStrategy strategy)
      arena := t.arena.setJoin node (.started strategy hashSet) }

/-- The stages of one pipeline, and all that follows from planning it. -/
structure Segment where
  stages : List Stage
  /-- Sets that have to exist before the stages run. -/
  intermediateSets : List SetId
  /-- The node whose output is a source from now on, and its set. -/
  newSource : Option (NodeId × SetId)
  changes : List Change
deriving DecidableEq

/-- The topology after the segment is planned. -/
def Segment.apply (s : Segment) (t : Topology) : Topology :=
  let t := s.changes.foldl Change.apply t
  match s.newSource with
  | some (node, set) => { t with arena := t.arena.setSource node set }
  | none => t

inductive Verdict
  | planned (segment : Segment)
  /-- Another source has to come first. -/
  | refused
  | failed (error : Error)
deriving DecidableEq

structure Analysis where
  /-- The stage identifier that was not taken yet when the analysis ended. -/
  reached : StageId
  verdict : Verdict
deriving DecidableEq

namespace Analysis

/-- A pipeline that ends here; its stages have taken the identifiers from `next` on. -/
def ofEnding (next : StageId) : Except Error Segment → Analysis
  | .ok segment => ⟨next.skip segment.stages.length, .planned segment⟩
  | .error error => ⟨next, .failed error⟩

/-- Changes the segment, if one is planned. -/
def mapSegment (a : Analysis) (change : Segment → Segment) : Analysis :=
  match a.verdict with
  | .planned segment => { a with verdict := .planned (change segment) }
  | .refused | .failed _ => a

/-- The pipeline came through the node. -/
def consuming (a : Analysis) (node : NodeId) : Analysis :=
  a.mapSegment fun s => { s with changes := s.changes ++ [.consume node] }

/-- The pipeline reads what another stage writes to the set just before. -/
def after (a : Analysis) (stage : Stage) (set : SetId) : Analysis :=
  a.mapSegment fun s =>
    { s with stages := stage :: s.stages, intermediateSets := set :: s.intermediateSets }

end Analysis

-----------------------------------------------------------------------------------------------
-- Where pipelines end

/-- All that an analysis can see. -/
structure View where
  jobId : String
  config : PlannerConfig
  stats : Statistics
  topology : Topology

/-- The output type of data on its way to an aggregation or a join. -/
def intermediateType : String := "IntermediateData"

/-- The set a pipeline is materialized in, those of its sets that are new, and what changes. -/
structure Placement where
  sink : SetId
  declared : List SetId
  changes : List Change

/-- The draft of a pipeline that ends in a set. -/
def TupleSetDraft.close (d : TupleSetDraft) (id : StageId) (target : String)
    (computation : Computation) (outputType : String) (sink : SetId) : TupleSetDraft :=
  { d with
    stageId := some id
    targetTupleSet := some target
    targetComputation := some computation.name
    outputType := some outputType
    sink := some sink
    allocator := computation.allocator }

namespace View

def node (v : View) (id : NodeId) : PhysicalNode := v.topology.arena.node id

def outputOf (v : View) (id : NodeId) : String := (v.node id).output

def computation (v : View) (id : NodeId) : Except Error Computation :=
  v.topology.graph.computation (v.node id).atomic.computation

/-- A set of the job's, named after a tuple set. -/
def jobSet (v : View) (id : NodeId) (suffix : String) (pageSize : Nat) : SetId :=
  .intermediate v.jobId (v.outputOf id ++ suffix) pageSize

/-- The pipeline ends in the set that the computation names. -/
def output (v : View) (next : StageId) (draft : TupleSetDraft) (prev id : NodeId)
    : Except Error Segment := do
  let computation ← v.computation id
  let sink ← computation.sinkSet
  let stage ←
    (draft.close next (v.outputOf prev) computation computation.outputType sink).finish
  pure ⟨[.tupleSet stage], [], none, []⟩

/-- The set that the computation keeps its output in, or a new one that it is redirected to. -/
def placement (v : View) (id : NodeId) (computation : Computation) : Except Error Placement := do
  if computation.materializeOutput then
    let sink ← computation.sinkSet
    pure ⟨sink, [], []⟩
  else
    let sink := v.jobSet id "" v.config.pageSize
    let _ ← v.topology.graph.computation computation.name
    pure ⟨sink, [sink], [.redirect computation.name v.jobId (v.outputOf id)]⟩

/-- The pipeline ends in a set that several consumers read. -/
def materialize (v : View) (next : StageId) (draft : TupleSetDraft) (prev id : NodeId)
    : Except Error Segment := do
  let computation ← v.computation id
  let place ← v.placement id computation
  let stage ←
    (draft.close next (v.outputOf prev) computation computation.outputType place.sink).finish
  pure ⟨[.tupleSet stage], place.declared, some (id, place.sink), place.changes⟩

/-- The place of an aggregate, and whether it is materialized there: without consumers the set
that the computation names, for one consumer that set if it is kept and a hash table otherwise, for
several a set that all can read.
-/
def aggregatePlacement (v : View) (id : NodeId) (computation : Computation)
    : Except Error (Placement × Bool) := do
  match (v.node id).active, computation.materializeOutput with
  | [], _ | [_], true =>
    let sink ← computation.sinkSet
    pure (⟨sink, [], []⟩, true)
  | [_], false =>
    pure (⟨.aggregationResult v.jobId (v.outputOf id ++ "_aggregationResult"), [], []⟩, false)
  | _, _ =>
    let place ← v.placement id computation
    pure (place, true)

/-- The pipeline is shuffled by key and then merged into the aggregate. -/
def aggregate (v : View) (next : StageId) (draft : TupleSetDraft) (prev id : NodeId)
    : Except Error Segment := do
  let computation ← v.computation id
  let (place, materialized) ← v.aggregatePlacement id computation
  let shuffled := v.jobSet id "_aggregationData" v.config.shufflePageSize
  let combiner :=
    if computation.usesCombiner then some (v.jobSet id "_combinerData" v.config.shufflePageSize)
    else none
  let draft := draft.close next (v.outputOf prev) computation intermediateType shuffled
  let shuffle ←
    { draft with
      combiner
      repartitioning := true
      collectAsMap := computation.collectAsMap
      nodesToCollect := computation.nodesToCollect : TupleSetDraft }.finish
  let merge ←
    { AggregationDraft.ofJob v.jobId with
      stageId := some next.next
      source := some shuffled
      sink := some place.sink
      computation := some computation.name
      materialize := materialized : AggregationDraft }.finish
  let newSource := if (v.node id).hasConsumers then some (id, place.sink) else none
  pure ⟨[.tupleSet shuffle, .aggregation merge],
    place.declared ++ [shuffled] ++ combiner.toList, newSource, place.changes⟩

/-- The pipeline is split by key into a set. -/
def partition (v : View) (next : StageId) (draft : TupleSetDraft) (prev id : NodeId)
    : Except Error Segment := do
  let computation ← v.computation id
  let place ←
    if (v.node id).hasConsumers then do
      let place ← v.placement id computation
      pure { place with sink := place.sink.withPageSize v.config.pageSize }
    else do
      let sink ← computation.sinkSet
      pure ⟨sink, [], []⟩
  let draft := draft.close next (v.outputOf prev) computation computation.outputType place.sink
  let stage ←
    { draft with repartitioning := true, repartitionVector := true : TupleSetDraft }.finish
  let newSource := if (v.node id).hasConsumers then some (id, place.sink) else none
  pure ⟨[.tupleSet stage], place.declared, newSource, place.changes⟩

-----------------------------------------------------------------------------------------------
-- Joins

/-- The cost of what the pipeline reads. -/
def draftCost (v : View) (draft : TupleSetDraft) : Float :=
  match draft.costSet with
  | some set => v.stats.costOf set
  | none => 0.0

/-- A side above the threshold is split by key, any other is broadcast. -/
def strategyFor (v : View) (draft : TupleSetDraft) : JoinStrategy :=
  if v.draftCost draft > v.config.joinThreshold then .hashPartitioned else .broadcast

/-- The name of a join's build-side data. -/
def buildSuffix : JoinStrategy → String
  | .hashPartitioned => "_repartitionData"
  | .broadcast => "_broadcastData"

/-- The side of a join that comes first ends in the join's hash table. -/
def joinBuild (v : View) (next : StageId) (draft : TupleSetDraft) (prev id : NodeId)
    : Except Error Segment := do
  let computation ← v.computation id
  let target := v.outputOf prev
  let strategy := v.strategyFor draft
  let data := v.jobSet id (buildSuffix strategy) v.config.broadcastPageSize
  let draft := draft.close next target computation intermediateType data
  let stage ←
    (match strategy with
      | .hashPartitioned => { draft with repartitioning := true, repartitionJoin := true }
      | .broadcast => { draft with broadcasting := true } : TupleSetDraft).finish
  let table : HashTableDraft :=
    { HashTableDraft.ofJob v.jobId with
      stageId := some next.next
      source := some data
      hashSet := some data.key
      sourceTupleSet := some stage.sourceTupleSet
      targetTupleSet := some target
      targetComputation := some computation.name }
  let build ←
    match strategy with
    | .hashPartitioned => Stage.partitionedBuild <$> table.finishPartitioned
    | .broadcast => Stage.broadcastBuild <$> table.finishBroadcast
  let _ ← v.topology.graph.computation computation.name
  pure ⟨[.tupleSet stage, build], [data], none,
    [.startJoin id computation.name strategy data.key]⟩

/-- A cheap side that probes another join does not build: it waits for the other side. -/
def isRefused (v : View) (draft : TupleSetDraft) : Bool :=
  draft.isProbing && v.draftCost draft ≤ v.config.joinThreshold

/-- The draft of the probing side of a join that is split by key, and the stage that splits it. -/
def splitProbe (v : View) (next : StageId) (draft : TupleSetDraft) (prev id : NodeId)
    (hashSet : String) : Except Error (Stage × SetId × TupleSetDraft) := do
  let computation ← v.computation id
  let output := v.outputOf id
  let data := v.jobSet id "_probeRepartitionData" v.config.broadcastPageSize
  let closed := draft.close next (v.outputOf prev) computation intermediateType data
  let stage ←
    { closed with repartitioning := true, repartitionJoin := true : TupleSetDraft }.finish
  let probe : TupleSetDraft :=
    { TupleSetDraft.ofJob v.jobId with
      sourceTupleSet := draft.sourceTupleSet
      source := some data
      costBasis := draft.costSet
      tupleSets := draft.tupleSets.getLast?.toList ++ [output] }
  pure (.tupleSet stage, data, probe.addProbe output hashSet)

-----------------------------------------------------------------------------------------------
-- Following a pipeline

/-- How an analysis goes on at a node that a pipeline reaches from another one. -/
abbrev Continuation := StageId → TupleSetDraft → (prev id : NodeId) → Analysis

/-- The pipeline takes in the node's tuple set and runs on to the next consumer. -/
def passThrough (v : View) (follow : Continuation) (next : StageId) (draft : TupleSetDraft)
    (id : NodeId) : Analysis :=
  match (v.node id).active with
  | [] => ⟨next, .failed (.violation (.noActiveConsumer (v.outputOf id)))⟩
  | consumer :: _ =>
    (follow next (draft.addTupleSet (v.outputOf id)) id consumer).consuming id

/-- A pipeline that probes the join's hash table runs on to the only consumer, or ends in a set
that several consumers read.
-/
def joinProbe (v : View) (follow : Continuation) (next : StageId) (draft : TupleSetDraft)
    (prev id : NodeId) : Analysis :=
  match (v.node id).active with
  | [] => ⟨next, .failed (.violation (.noActiveConsumer (v.outputOf id)))⟩
  | [consumer] => follow next draft id consumer
  | _ => .ofEnding next (v.materialize next draft prev id)

/-- A join builds its hash table for the side that comes first, and probes it for the other. -/
def join (v : View) (follow : Continuation) (next : StageId) (draft : TupleSetDraft)
    (prev id : NodeId) : Analysis :=
  if !(v.node id).hasConsumers then
    ⟨next, .failed (.unsupportedSink (v.node id).atomic.computation .join)⟩
  else
    match (v.node id).join?.getD .notStarted with
    | .notStarted =>
      if v.isRefused draft then ⟨next, .refused⟩
      else .ofEnding next (v.joinBuild next draft prev id)
    | .started .broadcast hashSet =>
      let output := v.outputOf id
      v.joinProbe follow next ((draft.addTupleSet output).addProbe output hashSet) prev id
    | .started .hashPartitioned hashSet =>
      match v.splitProbe next draft prev id hashSet with
      | .ok (stage, data, probe) => (v.joinProbe follow next.next probe prev id).after stage data
      | .error error => ⟨next, .failed error⟩

/-- What becomes of a pipeline that reaches a node. No pipeline is longer than the arena. -/
def follow (v : View) : Nat → Continuation
  | 0, next, _, _, _ => ⟨next, .failed (.violation .endless)⟩
  | steps + 1, next, draft, prev, id =>
    match (v.node id).route with
    | .output => .ofEnding next (v.output next draft prev id)
    | .passThrough => v.passThrough (v.follow steps) next draft id
    | .materialize => .ofEnding next (v.materialize next draft prev id)
    | .aggregate => .ofEnding next (v.aggregate next draft prev id)
    | .partition => .ofEnding next (v.partition next draft prev id)
    | .join => v.join (v.follow steps) next draft prev id

/-- The pipeline from a source to the next consumer, its stages numbered from `next` on. -/
def analyze (v : View) (source : NodeId) (next : StageId) : Analysis :=
  match (v.node source).sourceSet with
  | none => ⟨next, .failed (.violation (.notASource (v.outputOf source)))⟩
  | some set =>
    let draft : TupleSetDraft :=
      { TupleSetDraft.ofJob v.jobId with
        sourceTupleSet := some (v.outputOf source)
        source := some set }
    v.passThrough (v.follow v.topology.arena.size) next draft source

end View

-----------------------------------------------------------------------------------------------
-- After an analysis

/-- The topology after an attempt from a source: a refusal sends the next consumer to the back, a
failure leaves everything as it was.
-/
def Analysis.apply (a : Analysis) (source : NodeId) (t : Topology) : Topology :=
  match a.verdict with
  | .planned segment => segment.apply t
  | .refused => { t with arena := t.arena.rotate source }
  | .failed _ => t

end DataflowPlan
