import DataflowPlan.Proofs.Analysis.Pipeline

/-! What an analysis sees of the queues that it does not start from: which consumer comes first in a
queue of several makes no difference to a pipeline that arrives.
-/

namespace DataflowPlan.View

/-- Views that differ at most in how queues of several consumers are ordered. -/
structure Alike (v w : View) : Prop where
  jobId : v.jobId = w.jobId
  config : v.config = w.config
  stats : v.stats = w.stats
  graph : v.topology.graph = w.topology.graph
  size : v.topology.arena.size = w.topology.arena.size
  atomic : ∀ p, (v.node p).atomic = (w.node p).atomic
  kind : ∀ p, (v.node p).kind = (w.node p).kind
  sourceSet : ∀ p, (v.node p).sourceSet = (w.node p).sourceSet
  active
    : ∀ p,
        (v.node p).active = (w.node p).active
        ∨ 2 ≤ (v.node p).active.length ∧ 2 ≤ (w.node p).active.length

variable {v w : View} (alike : v.Alike w)

namespace Alike

include alike

theorem outputOf : v.outputOf = w.outputOf :=
  funext fun p => congrArg Atomic.output (alike.atomic p)

theorem computation : v.computation = w.computation := by
  funext p
  rw [View.computation, View.computation, alike.graph, alike.atomic]

theorem hasConsumers (p : NodeId) : (v.node p).hasConsumers = (w.node p).hasConsumers := by
  rcases alike.active p with same | ⟨several, several'⟩
  · rw [PhysicalNode.hasConsumers, PhysicalNode.hasConsumers, same]
  · rw [Bool.eq_iff_iff]
    simp only [PhysicalNode.hasConsumers, Bool.not_eq_true', List.isEmpty_eq_false_iff]
    rw [← List.length_pos_iff, ← List.length_pos_iff]
    omega

/-- What depends on whether there is no consumer, one or several is the same in both views. -/
theorem match_active {α : Type} (p : NodeId) (none : α) (one : NodeId → α) (several : α)
    : (match (v.node p).active with
        | [] => none
        | [consumer] => one consumer
        | _ => several)
        = (match (w.node p).active with
            | [] => none
            | [consumer] => one consumer
            | _ => several) := by
  rcases alike.active p with same | ⟨many, many'⟩
  · rw [same]
  · obtain ⟨first, second, rest, here⟩ : ∃ first second rest,
        (v.node p).active = first :: second :: rest := by
      match (v.node p).active, many with
      | first :: second :: rest, _ => exact ⟨first, second, rest, rfl⟩
    obtain ⟨first', second', rest', there⟩ : ∃ first second rest,
        (w.node p).active = first :: second :: rest := by
      match (w.node p).active, many' with
      | first :: second :: rest, _ => exact ⟨first, second, rest, rfl⟩
    rw [here, there]

theorem route (p : NodeId) : (v.node p).route = (w.node p).route := by
  unfold PhysicalNode.route
  rw [alike.kind]
  cases (w.node p).kind with
  | pipeline => exact alike.match_active p Route.output (fun _ => .passThrough) .materialize
  | aggregation => rfl
  | partition => rfl
  | join state => rfl

theorem jobSet : v.jobSet = w.jobSet := by
  funext p suffix pageSize
  rw [View.jobSet, View.jobSet, alike.jobId, alike.outputOf]

theorem output : v.output = w.output := by
  funext next draft prev p
  rw [View.output, View.output, alike.computation, alike.outputOf]

theorem placement : v.placement = w.placement := by
  funext p c
  rw [View.placement, View.placement, alike.jobSet, alike.config, alike.graph, alike.jobId,
    alike.outputOf]

theorem materialize : v.materialize = w.materialize := by
  funext next draft prev p
  rw [View.materialize, View.materialize, alike.computation, alike.placement, alike.outputOf]

theorem aggregatePlacement : v.aggregatePlacement = w.aggregatePlacement := by
  funext p c
  unfold View.aggregatePlacement
  rw [alike.placement, alike.jobId, alike.outputOf]
  cases keeps : c.materializeOutput with
  | true =>
      rcases alike.active p with same | ⟨many, many'⟩
      · rw [same]
      · match (v.node p).active, (w.node p).active, many, many' with
        | _ :: _ :: _, _ :: _ :: _, _, _ => rfl
  | false =>
      rcases alike.active p with same | ⟨many, many'⟩
      · rw [same]
      · match (v.node p).active, (w.node p).active, many, many' with
        | _ :: _ :: _, _ :: _ :: _, _, _ => rfl

theorem aggregate : v.aggregate = w.aggregate := by
  funext next draft prev p
  unfold View.aggregate
  rw [alike.computation, alike.aggregatePlacement, alike.jobSet, alike.config, alike.outputOf,
    alike.jobId, alike.hasConsumers]

theorem partition : v.partition = w.partition := by
  funext next draft prev p
  unfold View.partition
  rw [alike.computation, alike.placement, alike.config, alike.outputOf, alike.hasConsumers]

theorem draftCost : v.draftCost = w.draftCost := by
  funext draft
  rw [View.draftCost, View.draftCost, alike.stats]

theorem joinBuild : v.joinBuild = w.joinBuild := by
  funext next draft prev p
  unfold View.joinBuild View.strategyFor
  rw [alike.computation, alike.draftCost, alike.config, alike.jobSet, alike.outputOf, alike.jobId,
    alike.graph]

theorem isRefused : v.isRefused = w.isRefused := by
  funext draft
  rw [View.isRefused, View.isRefused, alike.draftCost, alike.config]

theorem splitProbe : v.splitProbe = w.splitProbe := by
  funext next draft prev p hashSet
  unfold View.splitProbe
  rw [alike.computation, alike.jobSet, alike.config, alike.outputOf, alike.jobId]

theorem joinProbe (follow : Continuation) : v.joinProbe follow = w.joinProbe follow := by
  funext next draft prev p
  unfold View.joinProbe
  rw [alike.outputOf, alike.materialize]
  exact alike.match_active p _ (fun consumer => follow next draft p consumer) _

theorem join (follow : Continuation) : v.join follow = w.join follow := by
  funext next draft prev p
  unfold View.join PhysicalNode.join?
  rw [alike.hasConsumers, alike.atomic, alike.kind, alike.isRefused, alike.joinBuild,
    alike.outputOf, alike.joinProbe, alike.splitProbe]

/-- What becomes of a pipeline that arrives at a node is the same in both views.
Witness: induction on the nodes that it may come to; it is passed through only with one consumer.
-/
theorem follow (steps : Nat) : v.follow steps = w.follow steps := by
  induction steps with
  | zero => rfl
  | succ steps ih =>
      funext next draft prev p
      have passes : (v.node p).route = .passThrough → (v.node p).active = (w.node p).active := by
        intro route
        rcases alike.active p with same | ⟨many, -⟩
        · exact same
        · exfalso
          unfold PhysicalNode.route at route
          match (v.node p).kind, (v.node p).active, route, many with
          | .pipeline, _ :: _ :: _, route, _ => simp at route
      rw [View.follow, View.follow, ← alike.route]
      cases route : (v.node p).route with
      | output => simp only [alike.output]
      | passThrough =>
          simp only [View.passThrough]
          rw [passes route, alike.outputOf, ih]
      | materialize => simp only [alike.materialize]
      | aggregate => simp only [alike.aggregate]
      | partition => simp only [alike.partition]
      | join =>
          simp only
          rw [alike.join, ih]

end Alike

end DataflowPlan.View
