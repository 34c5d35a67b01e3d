import DataflowPlan.Encoding.Graph
import DataflowPlan.Encoding.Set
import DataflowPlan.Session

/-!
The JSON form of arenas and sessions, for those who watch how planning goes on. It is written only:
a node shows the outputs of its consumers instead of their places.
-/

namespace DataflowPlan

open Json

-----------------------------------------------------------------------------------------------
-- Arenas

def JoinState.members (j : JoinState) : List (String × Value) :=
  [ ("transversed", .boolean j.isTransversed),
    ("strategy", .optional (fun s => .text (JoinStrategy.name s)) j.strategy?),
    ("hash_set_name", .optional .text j.hashSet?),
    ("partitioning_lhs", .boolean j.partitioningLhs)]

def JoinState.toJson (j : JoinState) : Value := .object j.members

def NodeKind.name : NodeKind → String
  | .pipeline => "pipeline"
  | .aggregation => "aggregation"
  | .partition => "partition"
  | .join _ => "join"

namespace Arena

/-- The output of the node at a place. -/
def outputToJson (arena : Arena) (id : NodeId) : Value :=
  .text (arena.node id).output

def nodeToJson (arena : Arena) (n : PhysicalNode) : Value :=
  .object [
    ("id", .natural n.id.index),
    ("output", .text n.output),
    ("computation", .text n.atomic.computation),
    ("atomic_kind", .text n.atomic.kind.name),
    ("kind", .text n.kind.name),
    ("join", .optional JoinState.toJson n.join?),
    ("consumers", .list arena.outputToJson n.consumers),
    ("active", .list arena.outputToJson n.active),
    ("front", .optional (fun id => .natural (NodeId.index id)) n.active.head?),
    ("has_consumers", .boolean n.hasConsumers),
    ("source_set", .optional SetId.toJson n.sourceSet),
    ("route", .text n.route.display)]

def toJson (arena : Arena) : Value :=
  .list arena.nodeToJson arena.nodes

end Arena

/-- What planning can change in a graph: the sets that computations name and how joins are
carried out.
-/
def Graph.decisions (g : Graph) : Value :=
  .list
    (fun c =>
      .array [
        .text c.name, .optional .text c.database, .optional .text c.setName,
        .boolean c.materializeOutput,
        .optional (fun s => .text (JoinStrategy.name s)) c.joinStrategy,
        .boolean c.partitioningLhs])
    g.computations.values

-----------------------------------------------------------------------------------------------
-- Sessions

namespace Session

/-- A registered source and its rank. -/
def sourceToJson (s : Session) (stats : Statistics) (key : String) (id : NodeId) : Value :=
  let node := s.node id
  .object [
    ("key", .text key),
    ("output", .text node.output),
    ("active", .list s.topology.arena.outputToJson node.active),
    ("cost", .floatOrName (node.cost stats)),
    ("ranking_cost", .floatOrName (s.rankingCost stats key id)),
    ("penalized", .boolean (s.penalized.contains key)),
    ("has_consumers", .boolean node.hasConsumers)]

/-- The joins of the arena, each after its output. -/
def joinsToJson (s : Session) : Value :=
  .array (s.topology.arena.nodes.filterMap fun n =>
    n.join?.map fun j => .array [.text n.output, j.toJson])

def toJson (s : Session) (stats : Statistics) : Value :=
  .object [
    ("next_stage_id", .natural s.nextStage.number),
    ("has_sources", .boolean s.hasSources),
    ("sources", .list (fun (key, id) => s.sourceToJson stats key id) s.sources.entries),
    ("penalized", .texts s.penalized.keys),
    ("best",
      .optional (fun (key, id) => .array [.text key, .natural (NodeId.index id)])
        (s.bestSource stats)),
    ("joins", s.joinsToJson)]

end Session

end DataflowPlan
