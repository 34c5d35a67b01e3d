import DataflowPlan.Graph

/-!
Graph validation. A graph can be planned when its outputs are distinct, all names resolve, each
atomic has the inputs its kind asks for, there is a scan, and no tuple set is made from itself.
-/

namespace DataflowPlan.Graph

-----------------------------------------------------------------------------------------------
-- Names and inputs

/-- The first output that an earlier atomic made already. -/
def firstRepeated (seen : List String) : List Atomic → Option String
  | [] => none
  | a :: rest =>
    if seen.contains a.output then some a.output else firstRepeated (a.output :: seen) rest

def outputs (g : Graph) : List String :=
  g.atomics.map Atomic.output

/-- An atomic's computation and inputs are known, and the inputs are those its kind asks for. -/
def checkAtomic (g : Graph) (a : Atomic) : Except Error Unit := do
  let _ ← g.computation a.computation
  match a.inputs.find? (!g.outputs.contains ·) with
  | some input => throw (.unknownTupleSet input)
  | none => pure ()
  if !a.hasFitInputs then
    throw (.graph (.inputCount a.output a.kind a.inputs.length))
  match a.kind, a.inputs with
  | .joinSets, [left, right] =>
    if left = right then throw (.graph (.sameSides a.output left)) else pure ()
  | _, _ => pure ()

-----------------------------------------------------------------------------------------------
-- Order

/-- For each output, how many of the inputs it is made from are still to come. -/
abbrev Waiting := List (String × Nat)

/-- Before anything is made, every atomic waits for all its inputs. -/
def waiting (g : Graph) : Waiting :=
  g.atomics.map fun a => (a.output, a.inputs.length)

/-- The outputs that wait for nothing. -/
def Waiting.ready (w : Waiting) : List String :=
  (w.filter (·.2 == 0)).map Prod.fst

def Waiting.count? (w : Waiting) (output : String) : Option Nat :=
  (w.find? (·.1 == output)).map Prod.snd

def Waiting.set (w : Waiting) (output : String) (count : Nat) : Waiting :=
  w.map fun entry => if entry.1 == output then (output, count) else entry

/-- The consumer of a tuple set that was just made waits for its reads of it no longer. -/
def Waiting.release (made : String) (state : Waiting × List String) (consumer : Atomic)
    : Waiting × List String :=
  match state.1.count? consumer.output with
  | some count =>
    let left := count - consumer.inputs.count made
    (state.1.set consumer.output left,
      if left == 0 then state.2 ++ [consumer.output] else state.2)
  | none => state

/-- How many of at most `fuel` tuple sets can be made, each after all it is made from. -/
def countMade (g : Graph) : Nat → Waiting → List String → Nat
  | 0, _, _ => 0
  | _ + 1, _, [] => 0
  | fuel + 1, w, made :: ready =>
    let (w, ready) := (g.consumersOf made).foldl (Waiting.release made) (w, ready)
    countMade g fuel w ready + 1

/-- All tuple sets can be made in some order. -/
def isOrdered (g : Graph) : Bool :=
  g.countMade g.atomics.length g.waiting g.waiting.ready == g.atomics.length

/-- The first fault of a graph that cannot be planned. -/
def validate (g : Graph) : Except Error Unit := do
  match firstRepeated [] g.atomics with
  | some output => throw (.graph (.producedTwice output))
  | none => pure ()
  g.atomics.forM g.checkAtomic
  if g.scans.isEmpty then throw (.graph .noScan)
  if !g.isOrdered then throw (.graph .cycle)

end DataflowPlan.Graph
