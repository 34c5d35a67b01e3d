/-!
The four kinds of stages and their names.
-/

namespace DataflowPlan

inductive StageKind
  | tupleSet
  | aggregation
  | broadcastBuild
  | partitionedBuild
deriving DecidableEq, Inhabited

/-- The kind's name in messages. -/
def StageKind.display : StageKind → String
  | .tupleSet => "TupleSetJobStage"
  | .aggregation => "AggregationJobStage"
  | .broadcastBuild => "BroadcastJoinBuildHTJobStage"
  | .partitionedBuild => "HashPartitionedJoinBuildHTJobStage"

end DataflowPlan
