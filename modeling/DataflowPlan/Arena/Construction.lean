import DataflowPlan.Arena
import DataflowPlan.Graph.Validation

/-!
The arena of a graph: every atomic that a scan leads to has one node, a producer has its consumers
in the order of declaration, and the scans carry the sets they read.
-/

namespace DataflowPlan.Arena

/-- Attaches a consumer to its producer; a new one still has its own consumers to find. -/
def attach (producer : NodeId) (state : Arena × List NodeId) (consumer : Atomic)
    : Arena × List NodeId :=
  let (arena, id, isNew) := state.1.insert consumer
  (arena.addConsumer producer id, if isNew then id :: state.2 else state.2)

/-- Attaches the consumers of the pending nodes, the newest first, until none is pending or
`fuel` nodes are done.
-/
def grow (g : Graph) : Nat → Arena → List NodeId → Arena
  | 0, arena, _ => arena
  | _ + 1, arena, [] => arena
  | fuel + 1, arena, current :: pending =>
    let (arena, pending) :=
      (g.consumersOf (arena.node current).output).foldl (attach current) (arena, pending)
    grow g fuel arena pending

/-- Adds a scan and all that it leads to. A graph has no more nodes than atomics. -/
def addScan (g : Graph) (arena : Arena) (scan : Atomic) : Except Error (Arena × NodeId) := do
  let computation ← g.computation scan.computation
  let set ← computation.sourceSet
  let (arena, id, _) := arena.insert scan
  pure (grow g g.atomics.length (arena.setSource id set) [id], id)

/-- Adds scans in turn, and lists their places. -/
def addScans (g : Graph) : List Atomic → Arena → Except Error (Arena × List NodeId)
  | [], arena => pure (arena, [])
  | scan :: rest, arena => do
    let (arena, id) ← addScan g arena scan
    let (arena, ids) ← addScans g rest arena
    pure (arena, id :: ids)

/-- The arena of a graph that can be planned, and the places of its scans. -/
def ofGraph (g : Graph) : Except Error (Arena × List NodeId) := do
  g.validate
  addScans g g.scans .empty

end DataflowPlan.Arena
