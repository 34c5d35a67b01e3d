import DataflowPlan.Cluster.Local

/-!
Watched clusters: a simulated cluster with a log of all requests, requests that are made to fail,
and a job that is cancelled by hand or when a given number of stages has begun.
-/

namespace DataflowPlan

/-- One request to one node. -/
inductive Event
  | statistics (node : Nat)
  | create (node : Nat) (key : String)
  | remove (node : Nat) (key : String)
  | execute (node : Nat) (stage : StageId) (kind : StageKind)
deriving DecidableEq

def Event.display : Event → String
  | .statistics node => "stats " ++ toString node
  | .create node key => "create " ++ toString node ++ " " ++ key
  | .remove node key => "remove " ++ toString node ++ " " ++ key
  | .execute node stage kind =>
    "execute " ++ toString node ++ " " ++ stage.display ++ " " ++ kind.display

structure WatchedCluster where
  cluster : LocalCluster
  events : List Event
  cancelled : Bool
  /-- The stages that nodes have begun to run. -/
  begun : Nat
  /-- The job is cancelled when this many stages have begun. -/
  cancelAfter : Option Nat
  /-- The node and key whose creation fails. -/
  failCreate : Option (Nat × String)
  /-- The node and key whose removal fails. -/
  failRemove : Option (Nat × String)

namespace WatchedCluster

/-- A cluster that is watched from now on. -/
def ofCluster (cluster : LocalCluster) : WatchedCluster :=
  ⟨cluster, [], false, 0, none, none, none⟩

def log (w : WatchedCluster) (event : Event) : WatchedCluster :=
  { w with events := w.events ++ [event] }

/-- Passes a request on to the cluster. -/
def pass {α : Type} (request : Request LocalCluster α) : Request WatchedCluster α := fun w =>
  let (answer, cluster) := request w.cluster
  (answer, { w with cluster })

def service : Service WatchedCluster where
  collect node w := pass (LocalCluster.collect node) (w.log (.statistics node.id))
  createSet node set w :=
    let w := w.log (.create node.id set.key)
    if w.failCreate == some (node.id, set.key) then
      (.error (.storage set.key node.id .injected), w)
    else pass (LocalCluster.createSet node set) w
  removeSet node set w :=
    let w := w.log (.remove node.id set.key)
    if w.failRemove == some (node.id, set.key) then
      (.error (.storage set.key node.id .injected), w)
    else pass (LocalCluster.removeSet node set) w
  execute node stage w :=
    let w := w.log (.execute node.id stage.id stage.kind)
    let begun := w.begun + 1
    let w := { w with begun, cancelled := w.cancelled || w.cancelAfter == some begun }
    pass (LocalCluster.execute node stage) w
  isCancelled w := (w.cancelled, w)

end WatchedCluster

end DataflowPlan
