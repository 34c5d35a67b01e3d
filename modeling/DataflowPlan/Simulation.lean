import DataflowPlan.Cluster.Local
import DataflowPlan.Job
import DataflowPlan.Scheduler

/-!
Simulations: a job that is run on a simulated cluster, with the sets it states spread evenly over
the nodes. So the scheduler starts from the costs that the job states.
-/

namespace DataflowPlan

-----------------------------------------------------------------------------------------------
-- Nodes

/-- Why a simulation cannot have its nodes. -/
inductive NodeCountFault
  | noNodes
  | beyondPorts (count : Nat)
deriving DecidableEq

namespace ClusterNode

/-- The port of the first simulated node; the others follow. -/
def basePort : Nat := 8108

def maxPort : Nat := 65535

def simulated (cores index : Nat) : ClusterNode :=
  ⟨index, "localhost", basePort + index, cores, defaultMemory⟩

/-- Simulated nodes with a port each. -/
def simulatedNodes (count cores : Nat) : Except NodeCountFault (List ClusterNode) :=
  if count = 0 then .error .noNodes
  else if maxPort < basePort + (count - 1) then .error (.beyondPorts count)
  else .ok ((List.range count).map (simulated cores))

end ClusterNode

def NodeCountFault.message : NodeCountFault → String
  | .noNodes => "--nodes must be at least 1"
  | .beyondPorts count =>
    "--nodes " ++ toString count ++ " runs out of ports above "
      ++ toString ClusterNode.basePort

-----------------------------------------------------------------------------------------------
-- Sets

namespace LocalCluster

/-- The page size of stated sets. A page costs as much as a megabyte. -/
def statedPageSize : Nat := 1000000

/-- The pages of one node, if all nodes have about the same share; the first ones have one more. -/
def share (pages nodes node : Nat) : Nat :=
  pages / nodes + (if node < pages % nodes then 1 else 0)

/-- Spreads the whole pages of a set over the nodes. -/
def spread (c : LocalCluster) (nodes : Nat) (s : SetSize) : LocalCluster :=
  (List.range nodes).foldl
    (fun c node =>
      c.seed node s.database s.name (share (s.bytes / statedPageSize) nodes node) statedPageSize)
    c

/-- The cluster that holds sets of the stated sizes. -/
def ofSizes (sizes : List SetSize) (nodes : Nat) : LocalCluster :=
  sizes.foldl (fun c s => c.spread nodes s) .empty

end LocalCluster

-----------------------------------------------------------------------------------------------
-- Runs

/-- Why a simulation fails. -/
inductive SimulationFault
  | nodes (fault : NodeCountFault)
  | planning (error : Error)
  | run (error : ExecError)
deriving DecidableEq

def SimulationFault.message : SimulationFault → String
  | .nodes fault => fault.message
  | .planning error => error.message
  | .run error => error.message

/-- Runs a job on a new cluster that holds the sets it states. -/
def Job.simulate (job : Job) (env : Environment) (nodes cores : Nat)
    : Except SimulationFault RunReport := do
  let nodes ← (ClusterNode.simulatedNodes nodes cores).mapError .nodes
  let cluster : ClusterConfig := { ClusterConfig.ofEnvironment env with nodes }
  let session ← (Session.start job.id job.graph job.config).mapError .planning
  cluster.validate.mapError fun error => .run (.planning error)
  let state := LocalCluster.ofSizes job.sizes nodes.length
  (LocalCluster.service.run cluster session state).1.mapError .run

end DataflowPlan
