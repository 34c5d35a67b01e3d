import DataflowPlan.Computation.Kind
import DataflowPlan.Identifier
import DataflowPlan.SetId
import DataflowPlan.Stage.Kind
import DataflowPlan.Table

/-!
Stages: the units of work that every node of the cluster carries out. What differs from node to
node stays open until a stage is sent out.
-/

namespace DataflowPlan

/-- Runs a pipeline of tuple sets from one set into another. -/
structure TupleSetStage where
  id : StageId
  jobId : String
  sourceTupleSet : String
  source : SetId
  /-- The tuple sets of the pipeline, in order. -/
  tupleSets : List String
  targetTupleSet : String
  targetComputation : String
  outputType : String
  sink : SetId
  combiner : Option SetId
  /-- For each join of the pipeline, the hash set that is probed. -/
  probes : Option (Table String)
  probing : Bool
  combining : Bool
  broadcasting : Bool
  repartitioning : Bool
  repartitionJoin : Bool
  repartitionVector : Bool
  collectAsMap : Bool
  nodesToCollect : Nat
  /-- The source is an uncombined aggregation result. -/
  inputAggHashOut : Bool
  /-- The source is dropped once it is read. -/
  needRemoveInput : Bool
  allocator : AllocatorPolicy
  nodeId : Option Nat
  nodeCount : Option Nat
  totalPartitions : Option Nat
  memory : Option Nat
deriving DecidableEq

/-- Merges shuffled data into the final aggregate. -/
structure AggregationStage where
  id : StageId
  jobId : String
  source : SetId
  sink : SetId
  computation : String
  materialize : Bool
  nodePartitions : Option Nat
  memory : Option Nat
deriving DecidableEq

/-- Builds a hash table of data that every node holds in full. -/
structure BroadcastBuildStage where
  id : StageId
  jobId : String
  source : SetId
  hashSet : String
  sourceTupleSet : String
  targetTupleSet : String
  targetComputation : String
  memory : Option Nat
deriving DecidableEq

/-- Builds a hash table of data that is split by key. -/
structure PartitionedBuildStage where
  id : StageId
  jobId : String
  source : SetId
  hashSet : String
  sourceTupleSet : String
  targetTupleSet : String
  targetComputation : String
  nodePartitions : Option Nat
  memory : Option Nat
deriving DecidableEq

inductive Stage
  | tupleSet (s : TupleSetStage)
  | aggregation (s : AggregationStage)
  | broadcastBuild (s : BroadcastBuildStage)
  | partitionedBuild (s : PartitionedBuildStage)
deriving DecidableEq

namespace Stage

def id : Stage → StageId
  | .tupleSet s => s.id
  | .aggregation s => s.id
  | .broadcastBuild s => s.id
  | .partitionedBuild s => s.id

def kind : Stage → StageKind
  | .tupleSet _ => .tupleSet
  | .aggregation _ => .aggregation
  | .broadcastBuild _ => .broadcastBuild
  | .partitionedBuild _ => .partitionedBuild

def source : Stage → SetId
  | .tupleSet s => s.source
  | .aggregation s => s.source
  | .broadcastBuild s => s.source
  | .partitionedBuild s => s.source

/-- The set that the stage writes; the building of a hash table writes none. -/
def sink? : Stage → Option SetId
  | .tupleSet s => some s.sink
  | .aggregation s => some s.sink
  | .broadcastBuild _ | .partitionedBuild _ => none

/-- The hash set that the stage builds. -/
def built? : Stage → Option String
  | .broadcastBuild s => some s.hashSet
  | .partitionedBuild s => some s.hashSet
  | .tupleSet _ | .aggregation _ => none

/-- The hash sets that the stage probes, by the joins' outputs. -/
def probed : Stage → List String
  | .tupleSet s => (s.probes.map Table.values).getD []
  | .aggregation _ | .broadcastBuild _ | .partitionedBuild _ => []

def isTupleSet : Stage → Bool
  | .tupleSet _ => true
  | .aggregation _ | .broadcastBuild _ | .partitionedBuild _ => false

end Stage

end DataflowPlan
