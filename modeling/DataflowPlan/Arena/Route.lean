import DataflowPlan.Arena

/-!
Routes: what becomes of a pipeline that arrives at a node. Kinds decide for breakers and joins, the
number of active consumers for everything else.
-/

namespace DataflowPlan

inductive Route
  /-- The pipeline ends in the set that the computation names. -/
  | output
  /-- The pipeline runs on to the only consumer. -/
  | passThrough
  /-- The pipeline ends in a set that several consumers read later. -/
  | materialize
  | aggregate
  | partition
  | join
deriving DecidableEq

namespace Route

def display : Route → String
  | .output => "Output"
  | .passThrough => "PassThrough"
  | .materialize => "Materialize"
  | .aggregate => "Aggregate"
  | .partition => "Partition"
  | .join => "Join"

end Route

def PhysicalNode.route (node : PhysicalNode) : Route :=
  match node.kind with
  | .aggregation => .aggregate
  | .partition => .partition
  | .join _ => .join
  | .pipeline =>
    match node.active with
    | [] => .output
    | [_] => .passThrough
    | _ => .materialize

end DataflowPlan
