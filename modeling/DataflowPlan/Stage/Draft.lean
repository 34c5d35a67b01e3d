import DataflowPlan.Error
import DataflowPlan.Stage

/-!
Drafts: stages whose fields are still being gathered. A finished draft has every required field;
the flags that follow from other fields are derived.
-/

namespace DataflowPlan

/-- A field that a stage cannot do without. -/
def need {α : Type} (kind : StageKind) (field : String) : Option α → Except Error α
  | some a => .ok a
  | none => .error (.violation (.incomplete kind field))

-----------------------------------------------------------------------------------------------
-- Pipelines

/-- A pipeline on its way from a source to the place where it ends. -/
structure TupleSetDraft where
  jobId : String
  stageId : Option StageId
  sourceTupleSet : Option String
  source : Option SetId
  /-- The set whose size stands for that of the source. -/
  costBasis : Option SetId
  tupleSets : List String
  targetTupleSet : Option String
  targetComputation : Option String
  outputType : Option String
  sink : Option SetId
  combiner : Option SetId
  probes : Table String
  broadcasting : Bool
  repartitioning : Bool
  repartitionJoin : Bool
  repartitionVector : Bool
  collectAsMap : Bool
  nodesToCollect : Nat
  allocator : AllocatorPolicy
deriving DecidableEq

namespace TupleSetDraft

def ofJob (jobId : String) : TupleSetDraft where
  jobId
  stageId := none
  sourceTupleSet := none
  source := none
  costBasis := none
  tupleSets := []
  targetTupleSet := none
  targetComputation := none
  outputType := none
  sink := none
  combiner := none
  probes := ∅
  broadcasting := false
  repartitioning := false
  repartitionJoin := false
  repartitionVector := false
  collectAsMap := false
  nodesToCollect := 0
  allocator := .standard

def addTupleSet (d : TupleSetDraft) (name : String) : TupleSetDraft :=
  { d with tupleSets := d.tupleSets ++ [name] }

/-- The pipeline makes a join's output by probing a hash set. -/
def addProbe (d : TupleSetDraft) (joinOutput hashSet : String) : TupleSetDraft :=
  { d with probes := d.probes.insert joinOutput hashSet }

/-- The set whose statistics stand for the pipeline's input. -/
def costSet (d : TupleSetDraft) : Option SetId :=
  d.costBasis.orElse fun _ => d.source

def isProbing (d : TupleSetDraft) : Bool :=
  !d.probes.isEmpty

/-- The stage of a draft that lacks nothing. -/
def finish (d : TupleSetDraft) : Except Error TupleSetStage := do
  let source ← need .tupleSet "source" d.source
  let id ← need .tupleSet "stage id" d.stageId
  let sourceTupleSet ← need .tupleSet "source tuple set" d.sourceTupleSet
  let targetTupleSet ← need .tupleSet "target tuple set" d.targetTupleSet
  let targetComputation ← need .tupleSet "target computation" d.targetComputation
  let outputType ← need .tupleSet "output type" d.outputType
  let sink ← need .tupleSet "sink" d.sink
  pure {
    id, jobId := d.jobId, sourceTupleSet, source
    tupleSets := d.tupleSets
    targetTupleSet, targetComputation, outputType, sink
    combiner := d.combiner
    probes := if d.isProbing then some d.probes else none
    probing := d.isProbing
    combining := d.combiner.isSome
    broadcasting := d.broadcasting
    repartitioning := d.repartitioning
    repartitionJoin := d.repartitionJoin
    repartitionVector := d.repartitionVector
    collectAsMap := d.collectAsMap
    nodesToCollect := d.nodesToCollect
    inputAggHashOut := source.isAggregationResult
    needRemoveInput := source.isAggregationResult
    allocator := d.allocator
    nodeId := none
    nodeCount := none
    totalPartitions := none
    memory := none
  }

end TupleSetDraft

-----------------------------------------------------------------------------------------------
-- Aggregations

structure AggregationDraft where
  jobId : String
  stageId : Option StageId
  source : Option SetId
  sink : Option SetId
  computation : Option String
  materialize : Bool
deriving DecidableEq

namespace AggregationDraft

def ofJob (jobId : String) : AggregationDraft :=
  ⟨jobId, none, none, none, none, false⟩

def finish (d : AggregationDraft) : Except Error AggregationStage := do
  let id ← need .aggregation "stage id" d.stageId
  let source ← need .aggregation "source" d.source
  let sink ← need .aggregation "sink" d.sink
  let computation ← need .aggregation "aggregate computation" d.computation
  pure ⟨id, d.jobId, source, sink, computation, d.materialize, none, none⟩

end AggregationDraft

-----------------------------------------------------------------------------------------------
-- Hash tables

/-- The building of a hash table for either join strategy. -/
structure HashTableDraft where
  jobId : String
  stageId : Option StageId
  source : Option SetId
  hashSet : Option String
  sourceTupleSet : Option String
  targetTupleSet : Option String
  targetComputation : Option String
deriving DecidableEq

namespace HashTableDraft

def ofJob (jobId : String) : HashTableDraft :=
  ⟨jobId, none, none, none, none, none, none⟩

def finishBroadcast (d : HashTableDraft) : Except Error BroadcastBuildStage := do
  let id ← need .broadcastBuild "stage id" d.stageId
  let source ← need .broadcastBuild "source" d.source
  let hashSet ← need .broadcastBuild "hash set name" d.hashSet
  let sourceTupleSet ← need .broadcastBuild "source tuple set" d.sourceTupleSet
  let targetTupleSet ← need .broadcastBuild "target tuple set" d.targetTupleSet
  let targetComputation ← need .broadcastBuild "target computation" d.targetComputation
  pure ⟨id, d.jobId, source, hashSet, sourceTupleSet, targetTupleSet, targetComputation, none⟩

def finishPartitioned (d : HashTableDraft) : Except Error PartitionedBuildStage := do
  let id ← need .partitionedBuild "stage id" d.stageId
  let source ← need .partitionedBuild "source" d.source
  let hashSet ← need .partitionedBuild "hash set name" d.hashSet
  let sourceTupleSet ← need .partitionedBuild "source tuple set" d.sourceTupleSet
  let targetTupleSet ← need .partitionedBuild "target tuple set" d.targetTupleSet
  let targetComputation ← need .partitionedBuild "target computation" d.targetComputation
  pure ⟨id, d.jobId, source, hashSet, sourceTupleSet, targetTupleSet, targetComputation, none,
    none⟩

end HashTableDraft

end DataflowPlan
