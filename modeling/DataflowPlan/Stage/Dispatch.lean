import DataflowPlan.Cluster.Config
import DataflowPlan.Stage

/-!
Sending out: the copy of a stage for one node of a cluster, with what that node has to know.
-/

namespace DataflowPlan.Stage

/-- The stage with the fields that only one node's copy has. -/
def specializeFor (stage : Stage) (node : ClusterNode) (cluster : ClusterConfig) : Stage :=
  let partitions := node.partitions cluster.partitionRatio
  match stage with
  | .tupleSet s =>
    .tupleSet { s with
      nodeId := some node.id
      nodeCount := some cluster.nodes.length
      totalPartitions := some cluster.totalPartitions
      memory := some node.memory }
  | .aggregation s =>
    .aggregation { s with nodePartitions := some partitions, memory := some node.memory }
  | .broadcastBuild s => .broadcastBuild { s with memory := some node.memory }
  | .partitionedBuild s =>
    .partitionedBuild { s with nodePartitions := some partitions, memory := some node.memory }

/-- The stage as it was planned, without the fields of a node's copy. -/
def planned : Stage → Stage
  | .tupleSet s =>
    .tupleSet { s with nodeId := none, nodeCount := none, totalPartitions := none, memory := none }
  | .aggregation s => .aggregation { s with nodePartitions := none, memory := none }
  | .broadcastBuild s => .broadcastBuild { s with memory := none }
  | .partitionedBuild s => .partitionedBuild { s with nodePartitions := none, memory := none }

/-- A node's copy differs from the stage in the fields of the copy only. -/
theorem planned_specializeFor (stage : Stage) (node : ClusterNode) (cluster : ClusterConfig)
    : (stage.specializeFor node cluster).planned = stage.planned := by
  cases stage <;> rfl

end DataflowPlan.Stage
