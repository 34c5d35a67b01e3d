import DataflowPlan.Analysis
import DataflowPlan.Proofs.Arena.Renumbering
import DataflowPlan.Proofs.Except

/-! Analyses of topologies whose nodes are numbered otherwise. Whatever is planned, refused or
failed is the same, but for the places of the nodes in the changes that go with it.
-/

namespace DataflowPlan

variable {move : NodeId → NodeId}

-----------------------------------------------------------------------------------------------
-- Outcomes at other places
-----------------------------------------------------------------------------------------------

def Change.moved (move : NodeId → NodeId) : Change → Change
  | .consume node => .consume (move node)
  | .redirect computation database name => .redirect computation database name
  | .startJoin node computation strategy hashSet =>
    .startJoin (move node) computation strategy hashSet

namespace Segment

def moved (move : NodeId → NodeId) (s : Segment) : Segment :=
  { s with
    newSource := s.newSource.map (Prod.map move id)
    changes := s.changes.map (Change.moved move) }

end Segment

def Placement.moved (move : NodeId → NodeId) (place : Placement) : Placement :=
  { place with changes := place.changes.map (Change.moved move) }

def Verdict.moved (move : NodeId → NodeId) : Verdict → Verdict
  | .planned segment => .planned (segment.moved move)
  | .refused => .refused
  | .failed error => .failed error

namespace Analysis

def moved (move : NodeId → NodeId) (a : Analysis) : Analysis :=
  { a with verdict := a.verdict.moved move }

theorem moved_ofEnding (next : StageId) (made : Except Error Segment)
    : (ofEnding next made).moved move = ofEnding next (made.map (Segment.moved move)) := by
  cases made <;> rfl

theorem moved_consuming (a : Analysis) (node : NodeId)
    : (a.consuming node).moved move = (a.moved move).consuming (move node) := by
  obtain ⟨reached, verdict⟩ := a
  cases verdict with
  | planned segment =>
      simp [consuming, mapSegment, moved, Verdict.moved, Segment.moved, Change.moved]
  | refused | failed error => rfl

theorem moved_after (a : Analysis) (stage : Stage) (set : SetId)
    : (a.after stage set).moved move = (a.moved move).after stage set := by
  obtain ⟨reached, verdict⟩ := a
  cases verdict <;> rfl

end Analysis

-----------------------------------------------------------------------------------------------
-- Topologies
-----------------------------------------------------------------------------------------------

/-- The second topology has the computations of the first one, and its nodes at other places. -/
structure Topology.Moved (move : NodeId → NodeId) (t moved : Topology) : Prop where
  computations : moved.graph.computations = t.graph.computations
  arena : t.arena.Moved move moved.arena

namespace Topology.Moved

variable {t moved : Topology} (moves : t.Moved move moved)

include moves

theorem apply_change (change : Change)
    : (change.apply t).Moved move ((change.moved move).apply moved) := by
  obtain ⟨computations, arena⟩ := moves
  cases change with
  | consume node => exact ⟨computations, arena.consumeFront node⟩
  | redirect computation database name =>
      refine ⟨?_, arena⟩
      simp only [Change.apply, Change.moved, Graph.modifyComputation, computations]
  | startJoin node computation strategy hashSet =>
      refine ⟨?_, arena.setJoin node _⟩
      simp only [Change.apply, Change.moved, Graph.modifyComputation, computations]

theorem apply_changes (changes : List Change)
    : (changes.foldl Change.apply t).Moved move
        ((changes.map (Change.moved move)).foldl Change.apply moved) := by
  induction changes generalizing t moved with
  | nil => exact moves
  | cons change rest ih => exact ih (moves.apply_change change)

/-- A planned segment leads to topologies that differ in the numbers of nodes alone. -/
theorem apply_segment (s : Segment)
    : (s.apply t).Moved move ((s.moved move).apply moved) := by
  have changed := moves.apply_changes s.changes
  unfold Segment.apply Segment.moved
  cases s.newSource with
  | none => exact changed
  | some source => exact ⟨changed.computations, changed.arena.setSource source.1 source.2⟩

theorem rotate (id : NodeId)
    : Topology.Moved move { t with arena := t.arena.rotate id }
        { moved with arena := moved.arena.rotate (move id) } :=
  ⟨moves.computations, moves.arena.rotate id⟩

end Topology.Moved

-----------------------------------------------------------------------------------------------
-- Views
-----------------------------------------------------------------------------------------------

namespace View

/-- The second view is the first one with the nodes at other places. -/
structure Moved (move : NodeId → NodeId) (v w : View) : Prop where
  jobId : w.jobId = v.jobId
  config : w.config = v.config
  stats : w.stats = v.stats
  topology : v.topology.Moved move w.topology

/-- Where pipelines go on alike at the nodes here and there. -/
def FollowsAlike (move : NodeId → NodeId) (here there : Continuation) : Prop :=
  ∀ next draft prev id,
    there next draft (move prev) (move id) = (here next draft prev id).moved move

namespace Moved

variable {v w : View} (moves : v.Moved move w)

include moves

theorem node (p : NodeId) : (v.node p).Moved move (w.node (move p)) :=
  moves.topology.arena.node p

theorem outputOf (p : NodeId) : w.outputOf (move p) = v.outputOf p :=
  (moves.node p).output

theorem graph_computation (name : String)
    : w.topology.graph.computation name = v.topology.graph.computation name := by
  rw [Graph.computation, Graph.computation, moves.topology.computations]

theorem computation (p : NodeId) : w.computation (move p) = v.computation p := by
  rw [View.computation, View.computation, moves.graph_computation, (moves.node p).atomic]

theorem hasConsumers (p : NodeId)
    : (w.node (move p)).hasConsumers = (v.node p).hasConsumers :=
  (moves.node p).hasConsumers

theorem route (p : NodeId) : (w.node (move p)).route = (v.node p).route := by
  rw [PhysicalNode.route, PhysicalNode.route, (moves.node p).kind, (moves.node p).active]
  cases (v.node p).kind with
  | pipeline => rcases (v.node p).active with _ | ⟨first, _ | ⟨second, rest⟩⟩ <;> rfl
  | aggregation | partition | join state => rfl

theorem jobSet (p : NodeId) : w.jobSet (move p) = v.jobSet p := by
  funext suffix pageSize
  rw [View.jobSet, View.jobSet, moves.jobId, moves.outputOf]

theorem output (next : StageId) (draft : TupleSetDraft) (prev id : NodeId)
    : w.output next draft (move prev) (move id)
        = (v.output next draft prev id).map (Segment.moved move) := by
  rw [View.output, View.output, moves.computation, moves.outputOf]
  simp only [Except.map_bind]
  rfl

theorem placement (id : NodeId) (c : Computation)
    : w.placement (move id) c = (v.placement id c).map (Placement.moved move) := by
  rw [View.placement, View.placement, moves.jobSet, moves.config, moves.graph_computation,
    moves.jobId, moves.outputOf]
  split <;> simp only [Except.map_bind] <;> rfl

theorem materialize (next : StageId) (draft : TupleSetDraft) (prev id : NodeId)
    : w.materialize next draft (move prev) (move id)
        = (v.materialize next draft prev id).map (Segment.moved move) := by
  rw [View.materialize, View.materialize, moves.computation, moves.outputOf]
  simp only [moves.placement, Except.map_bind, Except.bind_map]
  rfl

theorem aggregatePlacement (p : NodeId) (c : Computation)
    : w.aggregatePlacement (move p) c
        = (v.aggregatePlacement p c).map (Prod.map (Placement.moved move) id) := by
  unfold View.aggregatePlacement
  rw [(moves.node p).active, moves.placement, moves.jobId, moves.outputOf]
  rcases (v.node p).active with _ | ⟨first, _ | ⟨second, rest⟩⟩
  · simp only [List.map_nil, Except.map_bind]
    rfl
  · cases c.materializeOutput with
    | true =>
        simp only [List.map_cons, List.map_nil, Except.map_bind]
        rfl
    | false => rfl
  · simp only [List.map_cons, Except.map_bind, Except.bind_map]
    rfl

theorem aggregate (next : StageId) (draft : TupleSetDraft) (prev id : NodeId)
    : w.aggregate next draft (move prev) (move id)
        = (v.aggregate next draft prev id).map (Segment.moved move) := by
  rw [View.aggregate, View.aggregate, moves.computation, moves.outputOf, moves.jobSet,
    moves.config, moves.jobId, moves.hasConsumers]
  simp only [moves.aggregatePlacement, Except.map_bind, Except.bind_map, Prod.map]
  cases (v.node id).hasConsumers <;> rfl

theorem partition (next : StageId) (draft : TupleSetDraft) (prev id : NodeId)
    : w.partition next draft (move prev) (move id)
        = (v.partition next draft prev id).map (Segment.moved move) := by
  rw [View.partition, View.partition, moves.computation, moves.outputOf, moves.config,
    moves.hasConsumers]
  cases (v.node id).hasConsumers with
  | true =>
      simp only [moves.placement, Except.map_bind, Except.bind_map, if_true]
      rfl
  | false =>
      simp only [Except.map_bind, Bool.false_eq_true, if_false]
      rfl

theorem strategyFor : w.strategyFor = v.strategyFor := by
  funext draft
  rw [View.strategyFor, View.strategyFor, View.draftCost, View.draftCost, moves.stats,
    moves.config]

theorem joinBuild (next : StageId) (draft : TupleSetDraft) (prev id : NodeId)
    : w.joinBuild next draft (move prev) (move id)
        = (v.joinBuild next draft prev id).map (Segment.moved move) := by
  rw [View.joinBuild, View.joinBuild, moves.computation, moves.outputOf, moves.jobSet,
    moves.config, moves.jobId, moves.strategyFor]
  cases v.strategyFor draft <;>
    · simp only [moves.graph_computation, Except.map_bind]
      rfl

theorem isRefused : w.isRefused = v.isRefused := by
  funext draft
  rw [View.isRefused, View.isRefused, View.draftCost, View.draftCost, moves.stats, moves.config]

theorem splitProbe (next : StageId) (draft : TupleSetDraft) (prev id : NodeId) (hashSet : String)
    : w.splitProbe next draft (move prev) (move id) hashSet
        = v.splitProbe next draft prev id hashSet := by
  rw [View.splitProbe, View.splitProbe, moves.computation, moves.outputOf, moves.outputOf,
    moves.jobSet, moves.config, moves.jobId]

-----------------------------------------------------------------------------------------------
-- Following a pipeline
-----------------------------------------------------------------------------------------------

variable {here there : Continuation} (alike : FollowsAlike move here there)

include alike

theorem passThrough (next : StageId) (draft : TupleSetDraft) (id : NodeId)
    : w.passThrough there next draft (move id)
        = (v.passThrough here next draft id).moved move := by
  rw [View.passThrough, View.passThrough, (moves.node id).active, moves.outputOf]
  cases (v.node id).active with
  | nil => rfl
  | cons consumer rest =>
      rw [List.map_cons, Analysis.moved_consuming, ← alike]

theorem joinProbe (next : StageId) (draft : TupleSetDraft) (prev id : NodeId)
    : w.joinProbe there next draft (move prev) (move id)
        = (v.joinProbe here next draft prev id).moved move := by
  rw [View.joinProbe, View.joinProbe, (moves.node id).active, moves.outputOf, moves.materialize]
  rcases (v.node id).active with _ | ⟨first, _ | ⟨second, rest⟩⟩
  · rfl
  · exact alike next draft id first
  · exact (Analysis.moved_ofEnding _ _).symm

theorem join (next : StageId) (draft : TupleSetDraft) (prev id : NodeId)
    : w.join there next draft (move prev) (move id)
        = (v.join here next draft prev id).moved move := by
  rw [View.join, View.join, moves.hasConsumers, (moves.node id).join?, (moves.node id).atomic,
    moves.isRefused, moves.joinBuild, moves.outputOf]
  simp only [moves.joinProbe alike, moves.splitProbe]
  split
  · rfl
  · split
    · split
      · rfl
      · exact (Analysis.moved_ofEnding _ _).symm
    · rfl
    · split
      · exact (Analysis.moved_after _ _ _).symm
      · rfl

omit alike in
/-- Pipelines go on alike from node to node.
Witness: induction on the nodes that they may come to.
-/
theorem follow (steps : Nat) : FollowsAlike move (v.follow steps) (w.follow steps) := by
  induction steps with
  | zero => exact fun _ _ _ _ => rfl
  | succ steps ih =>
      intro next draft prev id
      rw [View.follow, View.follow, moves.route]
      cases (v.node id).route with
      | output => rw [moves.output, Analysis.moved_ofEnding]
      | passThrough => exact moves.passThrough ih next draft id
      | materialize => rw [moves.materialize, Analysis.moved_ofEnding]
      | aggregate => rw [moves.aggregate, Analysis.moved_ofEnding]
      | partition => rw [moves.partition, Analysis.moved_ofEnding]
      | join => exact moves.join ih next draft prev id

omit alike in
/-- The analysis of a source comes to the same at its other place. -/
theorem analyze (source : NodeId) (next : StageId)
    : w.analyze (move source) next = (v.analyze source next).moved move := by
  rw [View.analyze, View.analyze, (moves.node source).sourceSet, moves.outputOf, moves.jobId,
    moves.topology.arena.size]
  cases (v.node source).sourceSet with
  | none => rfl
  | some set => exact moves.passThrough (moves.follow _) _ _ _

end Moved

end View

end DataflowPlan
