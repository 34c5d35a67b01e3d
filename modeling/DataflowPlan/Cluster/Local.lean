import DataflowPlan.Cluster.Service

/-!
Simulated clusters: each node holds sets of pages, a stage adds pages to its sink, and every request
that is carried out is remembered.
-/

namespace DataflowPlan

structure LocalCluster where
  /-- The sets on each node, by node identifier and key. -/
  sets : List ((Nat × String) × SetReport)
  /-- The pages that a stage adds to a sink, by its key; one page for other sinks. -/
  outputPages : Table Nat
  executed : List (Nat × Stage)
  created : List (Nat × String)
  removed : List (Nat × String)
  /-- The stage that fails on a node. -/
  failStage : Option (Nat × StageId)
  /-- The node that reports no statistics. -/
  failStats : Option Nat
deriving DecidableEq

namespace LocalCluster

def empty : LocalCluster := ⟨[], ∅, [], [], [], none, none⟩

instance : Inhabited LocalCluster where
  default := empty

-----------------------------------------------------------------------------------------------
-- Sets

/-- What a node holds under a key. -/
def report? (c : LocalCluster) (node : Nat) (key : String) : Option SetReport :=
  (c.sets.find? (·.1 == (node, key))).map Prod.snd

def hasSet (c : LocalCluster) (node : Nat) (key : String) : Bool :=
  (c.report? node key).isSome

/-- The node no longer holds the set. -/
def drop (c : LocalCluster) (node : Nat) (key : String) : LocalCluster :=
  { c with sets := c.sets.filter (·.1 != (node, key)) }

/-- The node holds the set as reported, instead of any other of its key. -/
def put (c : LocalCluster) (node : Nat) (key : String) (report : SetReport) : LocalCluster :=
  { c with sets := (c.drop node key).sets ++ [((node, key), report)] }

/-- A set of pages that is there before any request. -/
def seed (c : LocalCluster) (node : Nat) (database name : String) (pages pageSize : Nat)
    : LocalCluster :=
  c.put node (setKey database name) ⟨database, name, pages, pageSize⟩

/-- A report without pages for a set. -/
def blank (set : SetId) : SetReport :=
  ⟨set.database, set.name, 0, set.pageSize.getD PlannerConfig.defaultPageSize⟩

/-- The order of reports: by database, then by name. -/
def reportLe (a b : SetReport) : Bool :=
  a.database < b.database || (a.database == b.database && !(b.name < a.name))

/-- All that a node holds, in order. -/
def reports (c : LocalCluster) (node : Nat) : List SetReport :=
  ((c.sets.filter (·.1.1 == node)).map Prod.snd).mergeSort reportLe

-----------------------------------------------------------------------------------------------
-- Requests

def collect (node : ClusterNode) : Request LocalCluster (List SetReport) := fun c =>
  if c.failStats == some node.id then (.error (.node node.id .noStatistics), c)
  else (.ok (c.reports node.id), c)

def createSet (node : ClusterNode) (set : SetId) : Request LocalCluster Unit := fun c =>
  if c.hasSet node.id set.key then (.error (.storage set.key node.id .exists), c)
  else
    let c := c.put node.id set.key (blank set)
    (.ok (), { c with created := c.created ++ [(node.id, set.key)] })

/-- A set that is not there is removed all the same. -/
def removeSet (node : ClusterNode) (set : SetId) : Request LocalCluster Unit := fun c =>
  let c := c.drop node.id set.key
  (.ok (), { c with removed := c.removed ++ [(node.id, set.key)] })

/-- The stage adds pages to its sink, which is there from then on. -/
def write (c : LocalCluster) (node : Nat) (sink : SetId) : LocalCluster :=
  let pages := (c.outputPages.get? sink.key).getD 1
  let report := (c.report? node sink.key).getD (blank sink)
  c.put node sink.key { report with pages := report.pages + pages }

/-- The set that the stage drops when it has read it. -/
def consumed? : Stage → Option SetId
  | .tupleSet s => if s.needRemoveInput then some s.source else none
  | .aggregation _ | .broadcastBuild _ | .partitionedBuild _ => none

/-- The node after a stage has run. -/
def afterStage (c : LocalCluster) (node : Nat) (stage : Stage) : LocalCluster :=
  let c :=
    match stage.sink? with
    | some sink => c.write node sink
    | none => c
  let c :=
    match consumed? stage with
    | some set => c.drop node set.key
    | none => c
  { c with executed := c.executed ++ [(node, stage)] }

/-- A stage needs the intermediate set that it reads. -/
def execute (node : ClusterNode) (stage : Stage) : Request LocalCluster Unit := fun c =>
  if c.failStage == some (node.id, stage.id) then
    (.error (.node node.id (.stageInjected stage.kind)), c)
  else if stage.source.isIntermediate && !c.hasSet node.id stage.source.key then
    (.error (.storage stage.source.key node.id .missing), c)
  else (.ok (), c.afterStage node.id stage)

/-- The requests of a simulated cluster, in a job that nobody cancels. -/
def service : Service LocalCluster where
  collect
  createSet
  removeSet
  execute
  isCancelled c := (false, c)

/-- The identifiers of the stages that a node has run, in order. -/
def stageOrder (c : LocalCluster) (node : Nat) : List StageId :=
  (c.executed.filter (·.1 == node)).map fun (_, stage) => stage.id

end LocalCluster

end DataflowPlan
