import DataflowPlan.Graph
import DataflowPlan.Json.Record

/-!
The JSON form of computations, atomics and graphs.
-/

namespace DataflowPlan

open Json

namespace ComputationKind

def name : ComputationKind → String
  | .scanSet => "scan_set"
  | .selection => "selection"
  | .multiSelection => "multi_selection"
  | .aggregation => "aggregation"
  | .partition => "partition"
  | .join => "join"
  | .write => "write"
  | .other => "other"

/-- A name that is not listed stands for some other kind. -/
def ofName : String → ComputationKind
  | "scan_set" => .scanSet
  | "selection" => .selection
  | "multi_selection" => .multiSelection
  | "aggregation" => .aggregation
  | "partition" => .partition
  | "join" => .join
  | "write" => .write
  | _ => .other

def ofJson? (v : Value) : Option ComputationKind := v.constant?.map ofName

end ComputationKind

namespace AtomicKind

def name : AtomicKind → String
  | .scan => "scan"
  | .aggregate => "aggregate"
  | .joinSets => "join_sets"
  | .partition => "partition"
  | .other => "other"

def ofName? : String → Option AtomicKind
  | "scan" => some .scan
  | "aggregate" => some .aggregate
  | "join_sets" => some .joinSets
  | "partition" => some .partition
  | "other" => some .other
  | _ => none

def ofJson? (v : Value) : Option AtomicKind := v.constant?.bind ofName?

end AtomicKind

namespace JoinStrategy

def name : JoinStrategy → String
  | .broadcast => "broadcast"
  | .hashPartitioned => "hash_partitioned"

def ofName? : String → Option JoinStrategy
  | "broadcast" => some .broadcast
  | "hash_partitioned" => some .hashPartitioned
  | _ => none

def ofJson? (v : Value) : Option JoinStrategy := v.constant?.bind ofName?

end JoinStrategy

namespace AllocatorPolicy

def name : AllocatorPolicy → String
  | .standard => "default"
  | .noReuse => "no_reuse"
  | .noReferenceCount => "no_reference_count"

def ofName? : String → Option AllocatorPolicy
  | "default" => some .standard
  | "no_reuse" => some .noReuse
  | "no_reference_count" => some .noReferenceCount
  | _ => none

def ofJson? (v : Value) : Option AllocatorPolicy := v.constant?.bind ofName?

/-- The policy as it stands in a record with a tag. -/
def ofTagged? (v : Value) : Option AllocatorPolicy := v.taggedConstant?.bind ofName?

end AllocatorPolicy

namespace Atomic

def toJson (a : Atomic) : Value :=
  .object [
    ("output_name", .text a.output),
    ("input_names", .texts a.inputs),
    ("computation_name", .text a.computation),
    ("kind", .text a.kind.name)]

def fieldNames : List String :=
  ["output_name", "input_names", "computation_name", "kind"]

def ofJson? (v : Value) : Option Atomic :=
  match v.fields? fieldNames with
  | some [output, inputs, computation, kind] => do
    let output ← output.required Value.text?
    let inputs ← inputs.orElse [] (Value.list? Value.text?)
    let computation ← computation.required Value.text?
    let kind ← kind.required AtomicKind.ofJson?
    pure ⟨output, inputs, computation, kind⟩
  | _ => none

end Atomic

namespace Computation

def toJson (c : Computation) : Value :=
  .object [
    ("name", .text c.name),
    ("computation_type", .text c.kind.name),
    ("database", .optional .text c.database),
    ("set_name", .optional .text c.setName),
    ("output_type", .text c.outputType),
    ("materialize_output", .boolean c.materializeOutput),
    ("uses_combiner", .boolean c.usesCombiner),
    ("collect_as_map", .boolean c.collectAsMap),
    ("num_nodes_to_collect", .natural c.nodesToCollect),
    ("allocator_policy", .text c.allocator.name),
    ("join_strategy", .optional (fun s => .text s.name) c.joinStrategy),
    ("partitioning_lhs", .boolean c.partitioningLhs)]

def fieldNames : List String :=
  ["name", "computation_type", "database", "set_name", "output_type", "materialize_output",
   "uses_combiner", "collect_as_map", "num_nodes_to_collect", "allocator_policy",
   "join_strategy", "partitioning_lhs"]

def ofJson? (v : Value) : Option Computation :=
  match v.fields? fieldNames with
  | some [name, kind, database, setName, outputType, materializeOutput, usesCombiner,
      collectAsMap, nodesToCollect, allocator, joinStrategy, partitioningLhs] => do
    let name ← name.required Value.text?
    let kind ← kind.required ComputationKind.ofJson?
    let database ← database.orElse none (Value.optional? Value.text?)
    let setName ← setName.orElse none (Value.optional? Value.text?)
    let outputType ← outputType.orElse defaultOutputType Value.text?
    let materializeOutput ← materializeOutput.orElse false Value.boolean?
    let usesCombiner ← usesCombiner.orElse false Value.boolean?
    let collectAsMap ← collectAsMap.orElse false Value.boolean?
    let nodesToCollect ← nodesToCollect.orElse 0 Value.word?
    let allocator ← allocator.orElse .standard AllocatorPolicy.ofJson?
    let joinStrategy ← joinStrategy.orElse none (Value.optional? JoinStrategy.ofJson?)
    let partitioningLhs ← partitioningLhs.orElse false Value.boolean?
    pure {
      name, kind, database, setName, outputType, materializeOutput, usesCombiner, collectAsMap
      nodesToCollect, allocator, joinStrategy, partitioningLhs
    }
  | _ => none

end Computation

namespace Graph

def toJson (g : Graph) : Value :=
  .object [
    ("atomics", .array (g.atomics.map Atomic.toJson)),
    ("computations", .object (g.computations.entries.map fun (name, c) => (name, c.toJson)))]

def fieldNames : List String :=
  ["atomics", "computations"]

def ofJson? (v : Value) : Option Graph :=
  match v.fields? fieldNames with
  | some [atomics, computations] => do
    let atomics ← atomics.required (Value.list? Atomic.ofJson?)
    let computations ← computations.required (Value.members? Computation.ofJson?)
    pure ⟨atomics, .ofList computations⟩
  | _ => none

end Graph

end DataflowPlan
