import DataflowPlan.Plan

/-!
Explanations: a plan as lines of text, one for each stage and each intermediate set.
-/

namespace DataflowPlan

/-- What is particular about a pipeline, in a fixed order. -/
def TupleSetStage.marks (s : TupleSetStage) : List String :=
  (if s.broadcasting then ["broadcast"] else [])
    ++ (if s.repartitioning then ["repartition"] else [])
    ++ (if s.repartitionJoin then ["join"] else [])
    ++ (if s.repartitionVector then ["vector"] else [])
    ++ ((s.probes.map Table.entries).getD []).map (fun (output, hashSet) =>
      "probe " ++ output ++ "<-" ++ hashSet)
    ++ (s.combiner.map fun set => "combiner " ++ set.key).toList
    ++ (if s.needRemoveInput then ["consume-input"] else [])

/-- Marks between braces, after a space; nothing for no marks. -/
def bracedMarks (marks : List String) : String :=
  if marks.isEmpty then "" else " \x7b" ++ "; ".intercalate marks ++ "\x7d"

/-- The line of a stage. -/
def Stage.explain : Stage → String
  | .tupleSet s =>
    "#" ++ toString s.id.number ++ " TupleSet " ++ s.source.key ++ " -> " ++ s.sink.key
      ++ " [" ++ ", ".intercalate s.tupleSets ++ "] via " ++ s.targetComputation
      ++ bracedMarks s.marks
  | .aggregation s =>
    "#" ++ toString s.id.number ++ " Aggregation " ++ s.source.key ++ " -> " ++ s.sink.key
      ++ " via " ++ s.computation ++ bracedMarks (if s.materialize then ["materialize"] else [])
  | .broadcastBuild s =>
    "#" ++ toString s.id.number ++ " BroadcastJoinBuild " ++ s.source.key ++ " => " ++ s.hashSet
      ++ " for " ++ s.targetComputation
  | .partitionedBuild s =>
    "#" ++ toString s.id.number ++ " HashPartitionedJoinBuild " ++ s.source.key ++ " => "
      ++ s.hashSet ++ " for " ++ s.targetComputation

/-- The line of an intermediate set. -/
def SetId.explain (set : SetId) : String :=
  match set.pageSize with
  | some size => set.key ++ " (page " ++ toString size ++ " bytes)"
  | none => set.key

/-- The lines of a plan. -/
def Plan.explainLines (p : Plan) : List String :=
  ["job " ++ p.jobId ++ ": " ++ toString p.stages.length ++ " stages, "
      ++ toString p.intermediateSets.length ++ " intermediate sets"]
    ++ p.stages.map (fun s => "  " ++ s.explain)
    ++ (if p.intermediateSets.isEmpty then []
      else "intermediate sets:" :: p.intermediateSets.map (fun set => "  " ++ set.explain))

/-- The text of a plan, every line ended. -/
def Plan.explain (p : Plan) : String :=
  String.join (p.explainLines.map (· ++ "\n"))

end DataflowPlan
