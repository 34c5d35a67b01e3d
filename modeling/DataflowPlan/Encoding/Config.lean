import DataflowPlan.Cluster.Config
import DataflowPlan.Json.Record
import DataflowPlan.Statistics

/-!
The JSON form of settings, cluster nodes and statistics.
-/

namespace DataflowPlan

open Json

namespace PlannerConfig

def toJson (c : PlannerConfig) : Value :=
  .object [
    ("page_size", .natural c.pageSize),
    ("broadcast_page_size", .natural c.broadcastPageSize),
    ("shuffle_page_size", .natural c.shufflePageSize),
    ("broadcast_join_cost_threshold", .float c.joinThreshold),
    ("source_penalty_factor", .float c.penaltyFactor)]

def fieldNames : List String :=
  ["page_size", "broadcast_page_size", "shuffle_page_size", "broadcast_join_cost_threshold",
   "source_penalty_factor"]

/-- Settings that are left out keep their standard values. -/
def ofJson? (v : Value) : Option PlannerConfig :=
  match v.fields? fieldNames with
  | some [pageSize, broadcastPageSize, shufflePageSize, joinThreshold, penaltyFactor] => do
    let pageSize ← pageSize.orElse standard.pageSize Value.word?
    let broadcastPageSize ← broadcastPageSize.orElse standard.broadcastPageSize Value.word?
    let shufflePageSize ← shufflePageSize.orElse standard.shufflePageSize Value.word?
    let joinThreshold ← joinThreshold.orElse standard.joinThreshold Value.float?
    let penaltyFactor ← penaltyFactor.orElse standard.penaltyFactor Value.float?
    pure { pageSize, broadcastPageSize, shufflePageSize, joinThreshold, penaltyFactor }
  | _ => none

end PlannerConfig

namespace ClusterNode

def toJson (n : ClusterNode) : Value :=
  .object [
    ("id", .natural n.id),
    ("address", .text n.address),
    ("port", .natural n.port),
    ("num_cores", .natural n.cores),
    ("memory_bytes", .natural n.memory)]

def fieldNames : List String :=
  ["id", "address", "port", "num_cores", "memory_bytes"]

def ofJson? (v : Value) : Option ClusterNode :=
  match v.fields? fieldNames with
  | some [id, address, port, cores, memory] => do
    let id ← id.required Value.word?
    let address ← address.required Value.text?
    let port ← port.required Value.port?
    let cores ← cores.required Value.word?
    let memory ← memory.required Value.word?
    pure ⟨id, address, port, cores, memory⟩
  | _ => none

end ClusterNode

namespace ClusterConfig

def toJson (c : ClusterConfig) : Value :=
  .object [
    ("partition_to_core_ratio", .float c.partitionRatio),
    ("nodes", .array (c.nodes.map ClusterNode.toJson))]

def fieldNames : List String :=
  ["partition_to_core_ratio", "nodes"]

def ofJson? (v : Value) : Option ClusterConfig :=
  match v.fields? fieldNames with
  | some [partitionRatio, nodes] => do
    let partitionRatio ← partitionRatio.orElse standard.partitionRatio Value.float?
    let nodes ← nodes.orElse [] (Value.list? ClusterNode.ofJson?)
    pure ⟨partitionRatio, nodes⟩
  | _ => none

end ClusterConfig

namespace SetStats

def toJson (s : SetStats) : Value :=
  .object [
    ("num_pages", .natural s.pages),
    ("page_size", .natural s.pageSize),
    ("num_bytes", .natural s.bytes),
    ("num_tuples", .natural s.tuples),
    ("avg_tuple_size", .natural s.tupleSize)]

def fieldNames : List String :=
  ["num_pages", "page_size", "num_bytes", "num_tuples", "avg_tuple_size"]

def ofJson? (v : Value) : Option SetStats :=
  match v.fields? fieldNames with
  | some [pages, pageSize, bytes, tuples, tupleSize] => do
    let pages ← pages.required Value.word?
    let pageSize ← pageSize.required Value.word?
    let bytes ← bytes.required Value.word?
    let tuples ← tuples.required Value.word?
    let tupleSize ← tupleSize.required Value.word?
    pure ⟨pages, pageSize, bytes, tuples, tupleSize⟩
  | _ => none

end SetStats

namespace Statistics

def toJson (s : Statistics) : Value :=
  .object [("sets", .object (s.sets.entries.map fun (key, entry) => (key, entry.toJson)))]

def fieldNames : List String :=
  ["sets"]

def ofJson? (v : Value) : Option Statistics :=
  match v.fields? fieldNames with
  | some [sets] => do
    let sets ← sets.required (Value.members? SetStats.ofJson?)
    pure ⟨.ofList sets⟩
  | _ => none

end Statistics

end DataflowPlan
