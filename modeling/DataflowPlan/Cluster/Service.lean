import DataflowPlan.Cluster.Config
import DataflowPlan.Stage.Dispatch
import DataflowPlan.Statistics

/-!
Services: the requests that a scheduler sends to single nodes, what can go wrong with them, and
the same request sent to all nodes. Every node is asked, whatever the others answer.
-/

namespace DataflowPlan

/-- Why a node does not do what is asked with a set. -/
inductive StorageFault
  | exists
  | missing
  | injected
deriving DecidableEq

def StorageFault.message : StorageFault → String
  | .exists => "set already exists"
  | .missing => "stage reads a set that does not exist"
  | .injected => "injected"

/-- Why a node does not answer as it should. -/
inductive NodeFault
  | noStatistics
  | stageInjected (kind : StageKind)
deriving DecidableEq

def NodeFault.message : NodeFault → String
  | .noStatistics => "statistics unavailable"
  | .stageInjected kind => "injected failure in " ++ kind.display

/-- Why a run fails. -/
inductive ExecError
  | planning (error : Error)
  | stageFailed (stage : StageId) (node : Nat) (cause : ExecError)
  | statistics (node : Nat) (cause : ExecError)
  | storage (set : String) (node : Nat) (fault : StorageFault)
  | node (node : Nat) (fault : NodeFault)
  | cancelled
deriving DecidableEq

def ExecError.message : ExecError → String
  | .planning error => "planning failed: " ++ error.message
  | .stageFailed stage n cause =>
    "stage " ++ stage.display ++ " failed on node " ++ toString n ++ ": " ++ cause.message
  | .statistics n cause =>
    "statistics refresh failed on node " ++ toString n ++ ": " ++ cause.message
  | .storage set n fault => "set " ++ set ++ " on node " ++ toString n ++ ": " ++ fault.message
  | .node n fault => "node " ++ toString n ++ ": " ++ fault.message
  | .cancelled => "job cancelled"

/-- The size of a set on one node. -/
structure SetReport where
  database : String
  name : String
  pages : Nat
  pageSize : Nat
deriving DecidableEq, Inhabited

/-- A request that answers and changes the state behind the service. -/
abbrev Request (σ α : Type) := σ → Except ExecError α × σ

/-- What a cluster answers for, node by node. -/
structure Service (σ : Type) where
  /-- All sets that the node holds. -/
  collect : ClusterNode → Request σ (List SetReport)
  createSet : ClusterNode → SetId → Request σ Unit
  removeSet : ClusterNode → SetId → Request σ Unit
  /-- Runs a node's copy of a stage to its end. -/
  execute : ClusterNode → Stage → Request σ Unit
  /-- Whether the job is to stop. -/
  isCancelled : σ → Bool × σ

/-- Asks the nodes in turn. -/
def askAll {σ α : Type} (ask : ClusterNode → Request σ α)
    : List ClusterNode → σ → List (ClusterNode × Except ExecError α) × σ
  | [], state => ([], state)
  | node :: rest, state =>
    let (answer, state) := ask node state
    let (answers, state) := askAll ask rest state
    ((node, answer) :: answers, state)

/-- The first error of the answers, as it is worded for the node. -/
def firstError (wording : ClusterNode → ExecError → ExecError)
    : List (ClusterNode × Except ExecError Unit) → Except ExecError Unit
  | [] => .ok ()
  | (node, .error error) :: _ => .error (wording node error)
  | (_, .ok ()) :: rest => firstError wording rest

/-- Adds the reports of all nodes to statistics, up to the first node that has none. -/
def addReports (stats : Statistics)
    : List (ClusterNode × Except ExecError (List SetReport)) → Except ExecError Statistics
  | [] => .ok stats
  | (node, .error error) :: _ => .error (.statistics node.id error)
  | (_, .ok reports) :: rest =>
    addReports
      (reports.foldl (fun stats r => stats.recordPages r.database r.name r.pages r.pageSize) stats)
      rest

namespace Service

variable {σ : Type} (service : Service σ) (cluster : ClusterConfig)

/-- The statistics of the whole cluster. -/
def refresh : Request σ Statistics := fun state =>
  let (answers, state) := askAll service.collect cluster.nodes state
  (addReports .empty answers, state)

/-- Runs a stage on all nodes, each with its own copy. -/
def dispatch (stage : Stage) : Request σ Unit := fun state =>
  let (answers, state) :=
    askAll (fun node => service.execute node (stage.specializeFor node cluster)) cluster.nodes
      state
  (firstError (fun node error => .stageFailed stage.id node.id error) answers, state)

def createEverywhere (set : SetId) : Request σ Unit := fun state =>
  let (answers, state) := askAll (service.createSet · set) cluster.nodes state
  (firstError (fun _ error => error) answers, state)

def removeEverywhere (set : SetId) : Request σ Unit := fun state =>
  let (answers, state) := askAll (service.removeSet · set) cluster.nodes state
  (firstError (fun _ error => error) answers, state)

end Service

end DataflowPlan
