import DataflowPlan.Graph
import DataflowPlan.Statistics

/-!
The arena of physical nodes: one node for each atomic that planning has to reach, and for each
node the consumers that are not yet part of any pipeline. Nodes refer to each other by place.
-/

namespace DataflowPlan

-----------------------------------------------------------------------------------------------
-- Joins

/-- How far a join is: the side that comes first builds the hash table, the other probes it. -/
inductive JoinState
  | notStarted
  | started (strategy : JoinStrategy) (hashSet : String)
deriving DecidableEq, Inhabited

namespace JoinState

/-- The only step of a join. -/
def start (state : JoinState) (strategy : JoinStrategy) (hashSet : String)
    : Except Error JoinState :=
  match state with
  | .notStarted => .ok (.started strategy hashSet)
  | .started _ built => .error (.violation (.alreadyBuilt built))

def isTransversed : JoinState → Bool
  | .notStarted => false
  | .started _ _ => true

def strategy? : JoinState → Option JoinStrategy
  | .notStarted => none
  | .started strategy _ => some strategy

def hashSet? : JoinState → Option String
  | .notStarted => none
  | .started _ hashSet => some hashSet

/-- The side that builds the hash table is split by key. -/
def partitioningLhs (state : JoinState) : Bool :=
  state.strategy? == some .hashPartitioned

end JoinState

-----------------------------------------------------------------------------------------------
-- Nodes

inductive NodeKind
  /-- A step that a pipeline runs through: scans, selections and writes. -/
  | pipeline
  | aggregation
  | partition
  | join (state : JoinState)
deriving DecidableEq, Inhabited

/-- The kind of node that an atomic leads to. -/
def NodeKind.ofAtomic : AtomicKind → NodeKind
  | .aggregate => .aggregation
  | .joinSets => .join .notStarted
  | .partition => .partition
  | .scan | .other => .pipeline

structure PhysicalNode where
  id : NodeId
  atomic : Atomic
  kind : NodeKind
  /-- All consumers, in the order in which they were attached. -/
  consumers : List NodeId
  /-- The consumers that no pipeline has reached from here, the next one in front. -/
  active : List NodeId
  /-- The set that a pipeline from here reads. -/
  sourceSet : Option SetId
deriving DecidableEq, Inhabited

namespace PhysicalNode

def ofAtomic (id : NodeId) (atomic : Atomic) : PhysicalNode :=
  ⟨id, atomic, .ofAtomic atomic.kind, [], [], none⟩

def output (node : PhysicalNode) : String := node.atomic.output

def join? (node : PhysicalNode) : Option JoinState :=
  match node.kind with
  | .join state => some state
  | .pipeline | .aggregation | .partition => none

def hasConsumers (node : PhysicalNode) : Bool :=
  !node.active.isEmpty

/-- The next consumer goes behind all others. -/
def rotate (node : PhysicalNode) : PhysicalNode :=
  match node.active with
  | [] => node
  | front :: rest => { node with active := rest ++ [front] }

/-- The next consumer is part of a pipeline now. -/
def consumeFront (node : PhysicalNode) : PhysicalNode :=
  { node with active := node.active.drop 1 }

def addConsumer (node : PhysicalNode) (consumer : NodeId) : PhysicalNode :=
  { node with consumers := node.consumers ++ [consumer], active := node.active ++ [consumer] }

/-- The cost of the set that the node reads; a node that is no source costs nothing. -/
def cost (node : PhysicalNode) (stats : Statistics) : Float :=
  match node.sourceSet with
  | some set => stats.costOf set
  | none => 0.0

end PhysicalNode

-----------------------------------------------------------------------------------------------
-- Arenas

structure Arena where
  nodes : List PhysicalNode
deriving DecidableEq, Inhabited

namespace Arena

def empty : Arena := ⟨[]⟩

def size (arena : Arena) : Nat := arena.nodes.length

/-- The node at a place; outside the arena a blank node without consumers. -/
def node (arena : Arena) (id : NodeId) : PhysicalNode :=
  arena.nodes[id.index]?.getD default

/-- The node that makes a tuple set. -/
def lookup (arena : Arena) (output : String) : Option NodeId :=
  (arena.nodes.find? (·.output == output)).map PhysicalNode.id

/-- Changes the node at a place. -/
def modify (arena : Arena) (id : NodeId) (change : PhysicalNode → PhysicalNode) : Arena :=
  ⟨arena.nodes.modify id.index change⟩

/-- The arena with a node for the atomic, that node's place, and whether the node is new. -/
def insert (arena : Arena) (atomic : Atomic) : Arena × NodeId × Bool :=
  match arena.lookup atomic.output with
  | some id => (arena, id, false)
  | none =>
    let id : NodeId := ⟨arena.size⟩
    (⟨arena.nodes ++ [.ofAtomic id atomic]⟩, id, true)

def addConsumer (arena : Arena) (producer consumer : NodeId) : Arena :=
  arena.modify producer (·.addConsumer consumer)

/-- Makes the node a source that reads the set. -/
def setSource (arena : Arena) (id : NodeId) (set : SetId) : Arena :=
  arena.modify id fun node => { node with sourceSet := some set }

def rotate (arena : Arena) (id : NodeId) : Arena :=
  arena.modify id PhysicalNode.rotate

def consumeFront (arena : Arena) (id : NodeId) : Arena :=
  arena.modify id PhysicalNode.consumeFront

def setJoin (arena : Arena) (id : NodeId) (state : JoinState) : Arena :=
  arena.modify id fun node => { node with kind := .join state }

/-- The consumers that no pipeline has reached, over all nodes. -/
def activeCount (arena : Arena) : Nat :=
  arena.nodes.foldr (fun node total => node.active.length + total) 0

end Arena

end DataflowPlan
