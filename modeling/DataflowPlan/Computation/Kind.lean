/-!
Kinds: what a computation is, how an atomic makes its tuple set, how a join gets its sides
together, and how a stage allocates.
-/

namespace DataflowPlan

inductive ComputationKind
  | scanSet
  | selection
  | multiSelection
  | aggregation
  | partition
  | join
  | write
  | other
deriving DecidableEq, Inhabited

/-- The kind's name in messages. -/
def ComputationKind.display : ComputationKind → String
  | .scanSet => "ScanSet"
  | .selection => "Selection"
  | .multiSelection => "MultiSelection"
  | .aggregation => "Aggregation"
  | .partition => "Partition"
  | .join => "Join"
  | .write => "Write"
  | .other => "Other"

/-- A set that a computation of this kind leaves can be read by a pipeline. -/
def ComputationKind.isReadable : ComputationKind → Bool
  | .scanSet | .selection | .multiSelection | .aggregation | .partition => true
  | .join | .write | .other => false

inductive AtomicKind
  | scan
  | aggregate
  | joinSets
  | partition
  | other
deriving DecidableEq, Inhabited

/-- The kind's name in messages. -/
def AtomicKind.display : AtomicKind → String
  | .scan => "Scan"
  | .aggregate => "Aggregate"
  | .joinSets => "JoinSets"
  | .partition => "Partition"
  | .other => "Other"

inductive JoinStrategy
  /-- One side is sent whole to every node. -/
  | broadcast
  /-- Both sides are split by key. -/
  | hashPartitioned
deriving DecidableEq, Inhabited

inductive AllocatorPolicy
  | standard
  | noReuse
  | noReferenceCount
deriving DecidableEq, Inhabited

end DataflowPlan
