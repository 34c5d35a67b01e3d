/-!
Identifiers: stages are numbered in the order in which they are emitted, physical nodes by their
place in the arena.
-/

namespace DataflowPlan

/-- The number of a stage. -/
structure StageId where
  number : Nat
deriving DecidableEq, Inhabited

/-- The place of a node in its arena. -/
structure NodeId where
  index : Nat
deriving DecidableEq, Inhabited

namespace StageId

/-- The identifier that follows. -/
def next (id : StageId) : StageId := ⟨id.number + 1⟩

/-- The identifier `count` places later. -/
def skip (id : StageId) (count : Nat) : StageId := ⟨id.number + count⟩

instance : LT StageId where
  lt a b := a.number < b.number

instance (a b : StageId) : Decidable (a < b) :=
  inferInstanceAs (Decidable (a.number < b.number))

def display (id : StageId) : String :=
  "StageId(" ++ toString id.number ++ ")"

end StageId

def NodeId.display (id : NodeId) : String :=
  "NodeId(" ++ toString id.index ++ ")"

end DataflowPlan
