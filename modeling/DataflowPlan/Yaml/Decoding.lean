import DataflowPlan.Yaml.Node

/-!
Decoding: taking a document apart while following its aliases. A document may stand for far more
than is written in it, so the number of aliases that are followed is bounded by its size.
-/

namespace DataflowPlan.Yaml

variable {α : Type}

/-- What can be made of a document, with the number of aliases that may yet be followed. -/
abbrev Decoding (α : Type) := ReaderT Document (StateT Nat Option) α

/-- The node itself, or the one that an alias stands for. -/
def Node.follow : Node → Decoding Node
  | .alias number => do
    let left ← get
    if left = 0 then failure
    set (left - 1)
    (← read).anchors.node? number
  | n => pure n

namespace Document

/-- The aliases that may be followed for each part of a document. -/
def repetition : Nat := 100

/-- What a decoder makes of the document. -/
def decode? (d : Document) (decode : Node → Decoding α) : Option α :=
  (((decode d.root).run d).run (repetition * d.root.size)).map Prod.fst

end Document

end DataflowPlan.Yaml
