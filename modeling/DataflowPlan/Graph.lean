import DataflowPlan.Computation
import DataflowPlan.Table

/-!
Computation graphs. Each atomic makes one tuple set from those it reads and points at the
computation that holds its metadata. Main statement: the consumers of a tuple set are the atomics
that read it, in the order of declaration.
-/

namespace DataflowPlan

/-- One step of a job: the tuple set it makes, those it reads, and its computation. -/
structure Atomic where
  output : String
  inputs : List String
  computation : String
  kind : AtomicKind
deriving DecidableEq, Inhabited

namespace Atomic

def scan (output computation : String) : Atomic := ⟨output, [], computation, .scan⟩

def apply (output input computation : String) : Atomic := ⟨output, [input], computation, .other⟩

def aggregate (output input computation : String) : Atomic :=
  ⟨output, [input], computation, .aggregate⟩

def partition (output input computation : String) : Atomic :=
  ⟨output, [input], computation, .partition⟩

def join (output left right computation : String) : Atomic :=
  ⟨output, [left, right], computation, .joinSets⟩

def reads (a : Atomic) (tupleSet : String) : Bool :=
  a.inputs.contains tupleSet

/-- The number of inputs that the kind asks for. -/
def hasFitInputs (a : Atomic) : Bool :=
  match a.kind with
  | .scan => a.inputs.isEmpty
  | .joinSets => a.inputs.length == 2
  | .aggregate | .partition => a.inputs.length == 1
  | .other => !a.inputs.isEmpty

end Atomic

structure Graph where
  atomics : List Atomic
  computations : Table Computation
deriving DecidableEq, Inhabited

namespace Graph

def empty : Graph := ⟨[], ∅⟩

def addAtomic (g : Graph) (a : Atomic) : Graph :=
  { g with atomics := g.atomics ++ [a] }

/-- A computation replaces an earlier one of its name. -/
def addComputation (g : Graph) (c : Computation) : Graph :=
  { g with computations := g.computations.insert c.name c }

/-- The graph of computations and atomics, each added in turn. -/
def ofLists (computations : List Computation) (atomics : List Atomic) : Graph :=
  atomics.foldl addAtomic (computations.foldl addComputation empty)

/-- The first atomic that makes the tuple set. -/
def atomic? (g : Graph) (output : String) : Option Atomic :=
  g.atomics.find? (·.output == output)

/-- The atomics that read the tuple set, in order of declaration. -/
def consumersOf (g : Graph) (output : String) : List Atomic :=
  g.atomics.filter (·.reads output)

/-- The scans, in order of declaration. -/
def scans (g : Graph) : List Atomic :=
  g.atomics.filter (·.kind == .scan)

def computation (g : Graph) (name : String) : Except Error Computation :=
  match g.computations.get? name with
  | some c => .ok c
  | none => .error (.unknownComputation name)

/-- Changes a computation; a name that the graph lacks changes nothing. -/
def modifyComputation (g : Graph) (name : String) (change : Computation → Computation) : Graph :=
  { g with computations := g.computations.modify name change }

theorem mem_consumersOf {g : Graph} {a : Atomic} {output : String}
    : a ∈ g.consumersOf output ↔ a ∈ g.atomics ∧ output ∈ a.inputs := by
  simp [consumersOf, Atomic.reads]

end Graph

end DataflowPlan
