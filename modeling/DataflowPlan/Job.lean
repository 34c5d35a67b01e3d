import DataflowPlan.Encoding.Config
import DataflowPlan.Encoding.Graph
import DataflowPlan.Graph.Validation
import DataflowPlan.Yaml.Record

/-!
Job descriptions: a graph, the sizes of the sets it reads and settings for the planner, written as a
YAML document. A description is checked as a whole: its form first, then the graph, then the
settings.
-/

namespace DataflowPlan

/-- The size of a set as a job states it. -/
structure SetSize where
  database : String
  name : String
  bytes : Nat
deriving DecidableEq, Inhabited

structure Job where
  id : String
  config : PlannerConfig
  graph : Graph
  /-- The sizes in the order in which they are stated. -/
  sizes : List SetSize
deriving DecidableEq, Inhabited

/-- The statistics that the stated sizes amount to; the last size of a set counts. -/
def Job.statistics (job : Job) : Statistics :=
  job.sizes.foldl (fun stats s => stats.setBytes s.database s.name s.bytes) .empty

/-- Why a text describes no job. -/
inductive JobFault
  /-- The text is no document of the form of a job. -/
  | malformed
  | invalid (error : Error)
deriving DecidableEq

def JobFault.message : JobFault → String
  | .malformed => "YAML parse error: not a job description"
  | .invalid error => "invalid job description: " ++ error.message

-----------------------------------------------------------------------------------------------
-- Form

open Yaml

/-- The job that a text states no name for. -/
def Job.defaultId : String := "job"

/-- Writes and aggregations are kept in the set they name, unless something else is stated. -/
def Computation.keepsByDefault (c : Computation) : Bool :=
  c.set?.isSome && (c.kind == .write || c.kind == .aggregation)

def AllocatorPolicy.ofYaml (n : Node) : Decoding AllocatorPolicy := do
  AllocatorPolicy.ofName? (← n.constant)

def AtomicKind.ofYaml (n : Node) : Decoding AtomicKind := do
  AtomicKind.ofName? (← n.constant)

def Computation.ofYaml (n : Node) : Decoding Computation := do
  match ← n.fields ["name", "type", "database", "set", "output_type", "materialize", "combiner",
      "collect_as_map", "num_nodes_to_collect", "allocator"] with
  | [name, kind, database, setName, outputType, materialize, combiner, collectAsMap,
      nodesToCollect, allocator] =>
    let name ← name.required Node.text
    let kind ← kind.required Node.constant
    let database ← database.orElse none (Node.optional Node.text)
    let setName ← setName.orElse none (Node.optional Node.text)
    let outputType ← outputType.orElse none (Node.optional Node.text)
    let materialize ← materialize.orElse none (Node.optional Node.boolean)
    let usesCombiner ← combiner.orElse false Node.boolean
    let collectAsMap ← collectAsMap.orElse false Node.boolean
    let nodesToCollect ← nodesToCollect.orElse 0 Node.word
    let allocator ← allocator.orElse .standard AllocatorPolicy.ofYaml
    let c : Computation :=
      { ofKind name (ComputationKind.ofName kind) with
        database, setName, usesCombiner, collectAsMap, nodesToCollect, allocator
        outputType := outputType.getD defaultOutputType }
    pure { c with materializeOutput := materialize.getD c.keepsByDefault }
  | _ => failure

def Atomic.ofYaml (n : Node) : Decoding Atomic := do
  match ← n.fields ["output", "inputs", "computation", "kind"] with
  | [output, inputs, computation, kind] =>
    let output ← output.required Node.text
    let inputs ← inputs.orElse [] (Node.list Node.text)
    let computation ← computation.required Node.text
    let kind ← kind.required AtomicKind.ofYaml
    pure ⟨output, inputs, computation, kind⟩
  | _ => failure

def SetSize.ofYaml (n : Node) : Decoding SetSize := do
  match ← n.fields ["database", "set", "bytes"] with
  | [database, name, bytes] =>
    let database ← database.required Node.text
    let name ← name.required Node.text
    let bytes ← bytes.required Node.word
    pure ⟨database, name, bytes⟩
  | _ => failure

/-- A job as it is written, before anything is checked but its form. -/
structure JobDocument where
  id : Option String
  settings : Option (List (Value × Value))
  computations : List Computation
  atomics : List Atomic
  sizes : List SetSize

namespace JobDocument

def ofYaml (n : Node) : Decoding JobDocument := do
  match ← n.fields ["job_id", "config", "computations", "graph", "statistics"] with
  | [id, settings, computations, atomics, sizes] =>
    let id ← id.orElse none (Node.optional Node.text)
    let settings ← settings.orElse none (Node.optional (Node.settings 1))
    let computations ← computations.required (Node.list Computation.ofYaml)
    let atomics ← atomics.required (Node.list Atomic.ofYaml)
    let sizes ← sizes.orElse [] (Node.list SetSize.ofYaml)
    pure ⟨id, settings, computations, atomics, sizes⟩
  | _ => failure

def graph (d : JobDocument) : Graph :=
  .ofLists d.computations d.atomics

end JobDocument

-----------------------------------------------------------------------------------------------
-- Settings

namespace PlannerConfig

/-- The first key that names no setting; none inside for a key that is no text. A text under a tag
names none.
-/
def unknownKey? (settings : List (Value × Value)) : Option (Option String) :=
  (settings.find? fun (key, _) => !key.text?.any fieldNames.contains).map
    fun (key, _) => key.untagged.text?

/-- The value of a setting, or that from elsewhere if it is not stated. -/
def setting? {α : Type} (settings : List (Value × Value)) (name : String) (other : α)
    (decode : Value → Option α) : Option α :=
  match settings.find? fun (key, _) => key.text? == some name with
  | some (_, v) => decode v
  | none => some other

/-- The settings, with those of a job in their place. -/
def override? (c : PlannerConfig) (settings : List (Value × Value)) : Option PlannerConfig := do
  let pageSize ← setting? settings "page_size" c.pageSize Value.word?
  let broadcastPageSize ←
    setting? settings "broadcast_page_size" c.broadcastPageSize Value.word?
  let shufflePageSize ← setting? settings "shuffle_page_size" c.shufflePageSize Value.word?
  let joinThreshold ←
    setting? settings "broadcast_join_cost_threshold" c.joinThreshold Value.float?
  let penaltyFactor ← setting? settings "source_penalty_factor" c.penaltyFactor Value.float?
  pure { pageSize, broadcastPageSize, shufflePageSize, joinThreshold, penaltyFactor }

/-- The settings, with those of a job in their place if all of them are known and have the right
form.
-/
def overridden (c : PlannerConfig) (settings : List (Value × Value))
    : Except JobFault PlannerConfig :=
  match unknownKey? settings, c.override? settings with
  | some key, _ => .error (.invalid (.config (.unknownKey key)))
  | none, some c => .ok c
  | none, none => .error .malformed

end PlannerConfig

-----------------------------------------------------------------------------------------------
-- Jobs

namespace Job

/-- The job of a document. Its settings count before those of `base`. -/
def ofDocument (base : PlannerConfig) (d : JobDocument) : Except JobFault Job := do
  d.graph.validate.mapError .invalid
  let config ← base.overridden (d.settings.getD [])
  config.validate.mapError .invalid
  pure ⟨d.id.getD defaultId, config, d.graph, d.sizes⟩

/-- The job that a text describes. -/
def ofText (base : PlannerConfig) (text : String) : Except JobFault Job :=
  match (Document.ofText? text).bind fun d => d.decode? JobDocument.ofYaml with
  | some d => ofDocument base d
  | none => .error .malformed

end Job

end DataflowPlan
