import DataflowPlan.Error
import DataflowPlan.SetId

/-!
Computations: the metadata behind the atomics of a graph. A computation may name a set; it is read
if its kind is readable, and written whatever the kind.
-/

namespace DataflowPlan

structure Computation where
  name : String
  kind : ComputationKind
  database : Option String
  setName : Option String
  outputType : String
  /-- The output is kept in the named set. -/
  materializeOutput : Bool
  usesCombiner : Bool
  collectAsMap : Bool
  nodesToCollect : Nat
  allocator : AllocatorPolicy
  /-- Decided when the first side of the join is built. -/
  joinStrategy : Option JoinStrategy
  partitioningLhs : Bool
deriving DecidableEq, Inhabited

namespace Computation

/-- The output type of a computation that states none. -/
def defaultOutputType : String := "Object"

/-- A computation of which only name and kind are known. -/
def ofKind (name : String) (kind : ComputationKind) : Computation where
  name
  kind
  database := none
  setName := none
  outputType := defaultOutputType
  materializeOutput := false
  usesCombiner := false
  collectAsMap := false
  nodesToCollect := 0
  allocator := .standard
  joinStrategy := none
  partitioningLhs := false

/-- A scan of a set. -/
def scan (name database setName : String) : Computation :=
  { ofKind name .scanSet with database := some database, setName := some setName }

/-- Directs the output to a set, where it is kept. -/
def setOutput (c : Computation) (database setName : String) : Computation :=
  { c with database := some database, setName := some setName, materializeOutput := true }

/-- Records how the join is carried out. -/
def setStrategy (c : Computation) (strategy : JoinStrategy) : Computation :=
  { c with joinStrategy := some strategy, partitioningLhs := strategy == .hashPartitioned }

/-- The set that the computation names. -/
def set? (c : Computation) : Option SetId :=
  match c.database, c.setName with
  | some database, some name => some (.user database name)
  | _, _ => none

/-- The set that a source of this computation reads. -/
def sourceSet (c : Computation) : Except Error SetId :=
  match c.set? with
  | some set => if c.kind.isReadable then .ok set else .error (.unsupportedSource c.name c.kind)
  | none => .error (.unsupportedSource c.name c.kind)

/-- The set that the computation writes. -/
def sinkSet (c : Computation) : Except Error SetId :=
  match c.set? with
  | some set => .ok set
  | none => .error (.unsupportedSink c.name c.kind)

end Computation

end DataflowPlan
