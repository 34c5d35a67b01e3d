import DataflowPlan.Encoding.Graph
import DataflowPlan.Encoding.Set
import DataflowPlan.Stage

/-!
The JSON form of stages. The fields of a stage come after a tag that tells its kind.
-/

namespace DataflowPlan

open Json

namespace StageId

def toJson (id : StageId) : Value := .natural id.number

def ofJson? (v : Value) : Option StageId := v.word?.map StageId.mk

end StageId

/-- The members of a table of texts. -/
def probesToJson (probes : Table String) : Value :=
  .object (probes.entries.map fun (output, hashSet) => (output, .text hashSet))

def probesOfJson? (v : Value) : Option (Table String) :=
  (v.members? Value.text?).map Table.ofList

namespace TupleSetStage

def members (s : TupleSetStage) : List (String × Value) :=
  [ ("id", s.id.toJson),
    ("job_id", .text s.jobId),
    ("source_tuple_set", .text s.sourceTupleSet),
    ("source", s.source.toJson),
    ("tuple_sets_to_build", .texts s.tupleSets),
    ("target_tuple_set", .text s.targetTupleSet),
    ("target_computation", .text s.targetComputation),
    ("output_type", .text s.outputType),
    ("sink", s.sink.toJson),
    ("combiner", .optional SetId.toJson s.combiner),
    ("hash_sets_to_probe", .optional probesToJson s.probes),
    ("probing", .boolean s.probing),
    ("combining", .boolean s.combining),
    ("broadcasting", .boolean s.broadcasting),
    ("repartitioning", .boolean s.repartitioning),
    ("repartition_join", .boolean s.repartitionJoin),
    ("repartition_vector", .boolean s.repartitionVector),
    ("collect_as_map", .boolean s.collectAsMap),
    ("num_nodes_to_collect", .natural s.nodesToCollect),
    ("input_agg_hash_out", .boolean s.inputAggHashOut),
    ("need_remove_input", .boolean s.needRemoveInput),
    ("allocator_policy", .text s.allocator.name),
    ("node_id", .optional .natural s.nodeId),
    ("num_nodes", .optional .natural s.nodeCount),
    ("num_total_partitions", .optional .natural s.totalPartitions),
    ("total_memory_on_node", .optional .natural s.memory)]

def fieldNames : List String :=
  ["id", "job_id", "source_tuple_set", "source", "tuple_sets_to_build", "target_tuple_set",
   "target_computation", "output_type", "sink", "combiner", "hash_sets_to_probe", "probing",
   "combining", "broadcasting", "repartitioning", "repartition_join", "repartition_vector",
   "collect_as_map", "num_nodes_to_collect", "input_agg_hash_out", "need_remove_input",
   "allocator_policy", "node_id", "num_nodes", "num_total_partitions", "total_memory_on_node"]

def ofJson? (v : Value) : Option TupleSetStage :=
  match v.fields? fieldNames with
  | some [id, jobId, sourceTupleSet, source, tupleSets, targetTupleSet, targetComputation,
      outputType, sink, combiner, probes, probing, combining, broadcasting, repartitioning,
      repartitionJoin, repartitionVector, collectAsMap, nodesToCollect, inputAggHashOut,
      needRemoveInput, allocator, nodeId, nodeCount, totalPartitions, memory] => do
    let id ← id.required StageId.ofJson?
    let jobId ← jobId.required Value.text?
    let sourceTupleSet ← sourceTupleSet.required Value.text?
    let source ← source.required SetId.ofTagged?
    let tupleSets ← tupleSets.required (Value.list? Value.text?)
    let targetTupleSet ← targetTupleSet.required Value.text?
    let targetComputation ← targetComputation.required Value.text?
    let outputType ← outputType.required Value.text?
    let sink ← sink.required SetId.ofTagged?
    let combiner ← combiner.nullable (Value.optional? SetId.ofTagged?)
    let probes ← probes.nullable (Value.optional? probesOfJson?)
    let probing ← probing.required Value.boolean?
    let combining ← combining.required Value.boolean?
    let broadcasting ← broadcasting.required Value.boolean?
    let repartitioning ← repartitioning.required Value.boolean?
    let repartitionJoin ← repartitionJoin.required Value.boolean?
    let repartitionVector ← repartitionVector.required Value.boolean?
    let collectAsMap ← collectAsMap.required Value.boolean?
    let nodesToCollect ← nodesToCollect.required Value.word?
    let inputAggHashOut ← inputAggHashOut.required Value.boolean?
    let needRemoveInput ← needRemoveInput.required Value.boolean?
    let allocator ← allocator.required AllocatorPolicy.ofTagged?
    let nodeId ← nodeId.nullable (Value.optional? Value.word?)
    let nodeCount ← nodeCount.nullable (Value.optional? Value.word?)
    let totalPartitions ← totalPartitions.nullable (Value.optional? Value.word?)
    let memory ← memory.nullable (Value.optional? Value.word?)
    pure {
      id, jobId, sourceTupleSet, source, tupleSets, targetTupleSet, targetComputation, outputType
      sink, combiner, probes, probing, combining, broadcasting, repartitioning, repartitionJoin
      repartitionVector, collectAsMap, nodesToCollect, inputAggHashOut, needRemoveInput, allocator
      nodeId, nodeCount, totalPartitions, memory
    }
  | _ => none

end TupleSetStage

namespace AggregationStage

def members (s : AggregationStage) : List (String × Value) :=
  [ ("id", s.id.toJson),
    ("job_id", .text s.jobId),
    ("source", s.source.toJson),
    ("sink", s.sink.toJson),
    ("aggregate_computation", .text s.computation),
    ("materialize", .boolean s.materialize),
    ("num_node_partitions", .optional .natural s.nodePartitions),
    ("total_memory_on_node", .optional .natural s.memory)]

def fieldNames : List String :=
  ["id", "job_id", "source", "sink", "aggregate_computation", "materialize",
   "num_node_partitions", "total_memory_on_node"]

def ofJson? (v : Value) : Option AggregationStage :=
  match v.fields? fieldNames with
  | some [id, jobId, source, sink, computation, materialize, nodePartitions, memory] => do
    let id ← id.required StageId.ofJson?
    let jobId ← jobId.required Value.text?
    let source ← source.required SetId.ofTagged?
    let sink ← sink.required SetId.ofTagged?
    let computation ← computation.required Value.text?
    let materialize ← materialize.required Value.boolean?
    let nodePartitions ← nodePartitions.nullable (Value.optional? Value.word?)
    let memory ← memory.nullable (Value.optional? Value.word?)
    pure { id, jobId, source, sink, computation, materialize, nodePartitions, memory }
  | _ => none

end AggregationStage

namespace BroadcastBuildStage

def members (s : BroadcastBuildStage) : List (String × Value) :=
  [ ("id", s.id.toJson),
    ("job_id", .text s.jobId),
    ("source", s.source.toJson),
    ("hash_set_name", .text s.hashSet),
    ("source_tuple_set", .text s.sourceTupleSet),
    ("target_tuple_set", .text s.targetTupleSet),
    ("target_computation", .text s.targetComputation),
    ("total_memory_on_node", .optional .natural s.memory)]

def fieldNames : List String :=
  ["id", "job_id", "source", "hash_set_name", "source_tuple_set", "target_tuple_set",
   "target_computation", "total_memory_on_node"]

def ofJson? (v : Value) : Option BroadcastBuildStage :=
  match v.fields? fieldNames with
  | some [id, jobId, source, hashSet, sourceTupleSet, targetTupleSet, targetComputation,
      memory] => do
    let id ← id.required StageId.ofJson?
    let jobId ← jobId.required Value.text?
    let source ← source.required SetId.ofTagged?
    let hashSet ← hashSet.required Value.text?
    let sourceTupleSet ← sourceTupleSet.required Value.text?
    let targetTupleSet ← targetTupleSet.required Value.text?
    let targetComputation ← targetComputation.required Value.text?
    let memory ← memory.nullable (Value.optional? Value.word?)
    pure { id, jobId, source, hashSet, sourceTupleSet, targetTupleSet, targetComputation, memory }
  | _ => none

end BroadcastBuildStage

namespace PartitionedBuildStage

def members (s : PartitionedBuildStage) : List (String × Value) :=
  [ ("id", s.id.toJson),
    ("job_id", .text s.jobId),
    ("source", s.source.toJson),
    ("hash_set_name", .text s.hashSet),
    ("source_tuple_set", .text s.sourceTupleSet),
    ("target_tuple_set", .text s.targetTupleSet),
    ("target_computation", .text s.targetComputation),
    ("num_node_partitions", .optional .natural s.nodePartitions),
    ("total_memory_on_node", .optional .natural s.memory)]

def fieldNames : List String :=
  ["id", "job_id", "source", "hash_set_name", "source_tuple_set", "target_tuple_set",
   "target_computation", "num_node_partitions", "total_memory_on_node"]

def ofJson? (v : Value) : Option PartitionedBuildStage :=
  match v.fields? fieldNames with
  | some [id, jobId, source, hashSet, sourceTupleSet, targetTupleSet, targetComputation,
      nodePartitions, memory] => do
    let id ← id.required StageId.ofJson?
    let jobId ← jobId.required Value.text?
    let source ← source.required SetId.ofTagged?
    let hashSet ← hashSet.required Value.text?
    let sourceTupleSet ← sourceTupleSet.required Value.text?
    let targetTupleSet ← targetTupleSet.required Value.text?
    let targetComputation ← targetComputation.required Value.text?
    let nodePartitions ← nodePartitions.nullable (Value.optional? Value.word?)
    let memory ← memory.nullable (Value.optional? Value.word?)
    pure {
      id, jobId, source, hashSet, sourceTupleSet, targetTupleSet, targetComputation
      nodePartitions, memory
    }
  | _ => none

end PartitionedBuildStage

namespace StageKind

def name : StageKind → String
  | .tupleSet => "tuple_set"
  | .aggregation => "aggregation"
  | .broadcastBuild => "broadcast_join_build"
  | .partitionedBuild => "hash_partitioned_join_build"

def ofName? : String → Option StageKind
  | "tuple_set" => some .tupleSet
  | "aggregation" => some .aggregation
  | "broadcast_join_build" => some .broadcastBuild
  | "hash_partitioned_join_build" => some .partitionedBuild
  | _ => none

end StageKind

namespace Stage

/-- The name of the member that holds the kind. -/
def tag : String := "stage"

def members : Stage → List (String × Value)
  | .tupleSet s => s.members
  | .aggregation s => s.members
  | .broadcastBuild s => s.members
  | .partitionedBuild s => s.members

def toJson (s : Stage) : Value :=
  .object ((tag, .text s.kind.name) :: s.members)

/-- The stage of a kind, from the value without the tag. -/
def ofFields? (kind : StageKind) (v : Value) : Option Stage :=
  match kind with
  | .tupleSet => (TupleSetStage.ofJson? v).map .tupleSet
  | .aggregation => (AggregationStage.ofJson? v).map .aggregation
  | .broadcastBuild => (BroadcastBuildStage.ofJson? v).map .broadcastBuild
  | .partitionedBuild => (PartitionedBuildStage.ofJson? v).map .partitionedBuild

/-- The tag stands anywhere in an object, and first in a list. -/
def ofTagged? : Value → Option Stage
  | .object members =>
    match members.filter (·.1 == tag) with
    | [(_, .text name)] => do
      let kind ← StageKind.ofName? name
      ofFields? kind (.object (members.filter (·.1 != tag)))
    | _ => none
  | .array (.text name :: items) => do
    let kind ← StageKind.ofName? name
    ofFields? kind (.array items)
  | _ => none

/-- The most levels of arrays and objects around and in a stage. -/
def highest : Nat := 127

/-- A stage under `outer` levels of arrays and objects. As its tag may come last, all of it is read
before its fields are looked for, even what belongs to no field.
-/
def ofJsonUnder? (outer : Nat) (v : Value) : Option Stage :=
  if v.isReadable && outer + v.height ≤ highest then ofTagged? v else none

def ofJson? : Value → Option Stage := ofJsonUnder? 0

end Stage

end DataflowPlan
