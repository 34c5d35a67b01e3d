import DataflowPlan.Config

/-!
Clusters: the nodes that stages are sent to, and the number of hash partitions each of them hosts.
-/

namespace DataflowPlan

/-- One node of a cluster. -/
structure ClusterNode where
  id : Nat
  address : String
  port : Nat
  cores : Nat
  /-- Memory for stages, in bytes. -/
  memory : Nat
deriving DecidableEq, Inhabited

namespace ClusterNode

def defaultCores : Nat := 8

/-- 4 GiB. -/
def defaultMemory : Nat := 4294967296

/-- The hash partitions of the node: its cores times the ratio, rounded down, and at least one. A
product beyond 64 bits counts as the largest word, an undefined one as nothing.
-/
def partitions (node : ClusterNode) (ratio : Float) : Nat :=
  max 1 (Float.ofNat node.cores * ratio).floor.toUInt64.toNat

end ClusterNode

structure ClusterConfig where
  /-- Hash partitions per core. -/
  partitionRatio : Float
  nodes : List ClusterNode
deriving DecidableEq

namespace ClusterConfig

def standard : ClusterConfig := ⟨0.75, []⟩

instance : Inhabited ClusterConfig where
  default := standard

/-- The standard ratio, or that of the variable; the nodes come from elsewhere. -/
def ofEnvironment (env : Environment) : ClusterConfig where
  partitionRatio :=
    (env.float? "STAGEPLAN_PARTITION_TO_CORE_RATIO").getD standard.partitionRatio
  nodes := []

/-- The hash partitions of all nodes together. -/
def totalPartitions (cluster : ClusterConfig) : Nat :=
  cluster.nodes.foldr (fun node total => node.partitions cluster.partitionRatio + total) 0

/-- There is a node, and the ratio is positive. -/
def validate (cluster : ClusterConfig) : Except Error Unit :=
  if cluster.nodes.isEmpty then .error (.config .noNodes)
  else if !(cluster.partitionRatio > 0.0) then
    .error (.config (.ratio cluster.partitionRatio))
  else .ok ()

end ClusterConfig

end DataflowPlan
