import DataflowPlan.Proofs.Analysis.Pipeline
import DataflowPlan.Proofs.Arena.Wiring
import DataflowPlan.Proofs.Graph.Valid

/-! What a planned segment changes: the queues of the nodes that it came through, the join that it
builds, the node that it makes a source, and the computation that it redirects. Everything else
stays as it was.
-/

namespace DataflowPlan

namespace Change

/-- The change starts the join at the node. -/
def Starts (p : NodeId) : Change → Prop
  | .startJoin node _ _ _ => node = p
  | .consume _ | .redirect _ _ _ => False

theorem active_apply (change : Change) (t : Topology) (p : NodeId)
    : ((change.apply t).arena.node p).active
        = (t.arena.node p).active.drop (if change = .consume p then 1 else 0) := by
  cases change with
  | consume node =>
      rw [Change.apply, Arena.node_consumeFront]
      by_cases same : p = node
      · subst same
        simp [PhysicalNode.consumeFront]
      · have differs : ¬ node = p := fun h => same h.symm
        simp [same, differs]
  | redirect computation database name => simp [Change.apply]
  | startJoin node computation strategy hashSet =>
      simp only [Change.apply, Arena.setJoin, Arena.node_modify, reduceCtorEq, if_false,
        List.drop_zero]
      split
      · next here => rw [here.1]
      · rfl

theorem sourceSet_apply (change : Change) (t : Topology) (p : NodeId)
    : ((change.apply t).arena.node p).sourceSet = (t.arena.node p).sourceSet := by
  cases change with
  | consume node =>
      rw [Change.apply, Arena.node_consumeFront]
      split
      · next same => rw [same]; rfl
      · rfl
  | redirect computation database name => rfl
  | startJoin node computation strategy hashSet =>
      simp only [Change.apply, Arena.setJoin, Arena.node_modify]
      split
      · next here => rw [here.1]
      · rfl

theorem kind_apply {change : Change} (t : Topology) {p : NodeId} (keeps : ¬ change.Starts p)
    : ((change.apply t).arena.node p).kind = (t.arena.node p).kind := by
  cases change with
  | consume node =>
      rw [Change.apply, Arena.node_consumeFront]
      split
      · next same => rw [same]; rfl
      · rfl
  | redirect computation database name => rfl
  | startJoin node computation strategy hashSet =>
      have differs : ¬ p = node := fun same => keeps same.symm
      simp [Change.apply, Arena.setJoin, Arena.node_modify, differs]

/-- A change frames the arena, if it starts nothing but joins. -/
theorem frame_apply {change : Change} {t : Topology}
    (joins : ∀ p, change.Starts p → (t.arena.node p).kind.reset = .join .notStarted)
    : (change.apply t).arena.Frame t.arena := by
  cases change with
  | consume node => exact Arena.frame_consumeFront _ _
  | redirect computation database name => exact .refl _
  | startJoin node computation strategy hashSet =>
      exact Arena.frame_setJoin _ _ _ (joins node rfl)

end Change

theorem active_foldl (changes : List Change) (t : Topology) (p : NodeId)
    : ((changes.foldl Change.apply t).arena.node p).active
        = (t.arena.node p).active.drop (changes.count (.consume p)) := by
  induction changes generalizing t with
  | nil => simp
  | cons change rest ih =>
      rw [List.foldl_cons, ih, Change.active_apply, List.drop_drop, List.count_cons]
      simp only [beq_iff_eq]
      rw [Nat.add_comm]

theorem sourceSet_foldl (changes : List Change) (t : Topology) (p : NodeId)
    : ((changes.foldl Change.apply t).arena.node p).sourceSet
        = (t.arena.node p).sourceSet := by
  induction changes generalizing t with
  | nil => rfl
  | cons change rest ih => rw [List.foldl_cons, ih, Change.sourceSet_apply]

theorem kind_foldl {changes : List Change} (t : Topology) {p : NodeId}
    (keeps : ∀ change ∈ changes, ¬ change.Starts p)
    : ((changes.foldl Change.apply t).arena.node p).kind = (t.arena.node p).kind := by
  induction changes generalizing t with
  | nil => rfl
  | cons change rest ih =>
      rw [List.foldl_cons, ih _ fun other member => keeps other (by simp [member]),
        Change.kind_apply t (keeps change (by simp))]

theorem frame_foldl {changes : List Change} {t : Topology}
    (joins
      : ∀ change ∈ changes, ∀ p,
          change.Starts p → (t.arena.node p).kind.reset = .join .notStarted)
    : (changes.foldl Change.apply t).arena.Frame t.arena := by
  induction changes generalizing t with
  | nil => exact .refl _
  | cons change rest ih =>
      have first := Change.frame_apply (joins change (by simp))
      refine (ih ?_).trans first
      intro other member p starts
      rw [first.kind]
      exact joins other (by simp [member]) p starts

namespace Segment

theorem graph_apply (s : Segment) (t : Topology)
    : (s.apply t).graph = (s.changes.foldl Change.apply t).graph := by
  unfold Segment.apply
  cases s.newSource <;> rfl

/-- The arena after a segment is that after its changes, but for the set of the new source. -/
theorem node_apply (s : Segment) (t : Topology) (p : NodeId)
    : (s.apply t).arena.node p = (s.changes.foldl Change.apply t).arena.node p
      ∨ ∃ set,
          s.newSource = some (p, set)
          ∧ (s.apply t).arena.node p
            = { (s.changes.foldl Change.apply t).arena.node p with sourceSet := some set } := by
  unfold Segment.apply
  cases source : s.newSource with
  | none => exact .inl rfl
  | some pair =>
      obtain ⟨id, set⟩ := pair
      simp only [Arena.setSource, Arena.node_modify]
      split
      · next here => exact .inr ⟨set, by rw [here.1], by rw [here.1]⟩
      · exact .inl rfl

theorem active_apply (s : Segment) (t : Topology) (p : NodeId)
    : ((s.apply t).arena.node p).active
        = (t.arena.node p).active.drop (s.changes.count (.consume p)) := by
  rw [← active_foldl]
  rcases s.node_apply t p with same | ⟨set, -, changed⟩
  · rw [same]
  · rw [changed]

theorem kind_apply {s : Segment} (t : Topology) {p : NodeId}
    (keeps : ∀ change ∈ s.changes, ¬ change.Starts p)
    : ((s.apply t).arena.node p).kind = (t.arena.node p).kind := by
  rw [← kind_foldl t keeps]
  rcases s.node_apply t p with same | ⟨set, -, changed⟩
  · rw [same]
  · rw [changed]

theorem sourceSet_apply_of_none {s : Segment} (t : Topology) {p : NodeId}
    (other : ∀ set, s.newSource ≠ some (p, set))
    : ((s.apply t).arena.node p).sourceSet = (t.arena.node p).sourceSet := by
  rcases s.node_apply t p with same | ⟨set, here, -⟩
  · rw [same, sourceSet_foldl]
  · exact absurd here (other set)

theorem frame_apply {s : Segment} {t : Topology}
    (joins
      : ∀ change ∈ s.changes, ∀ p,
          change.Starts p → (t.arena.node p).kind.reset = .join .notStarted)
    : (s.apply t).arena.Frame t.arena := by
  refine Arena.Frame.trans ?_ (frame_foldl joins)
  unfold Segment.apply
  cases s.newSource with
  | none => exact .refl _
  | some pair => exact Arena.frame_setSource _ _ _

theorem sourceSet_apply_new {s : Segment} {t : Topology} {p : NodeId} {set : SetId}
    (joins
      : ∀ change ∈ s.changes, ∀ p,
          change.Starts p → (t.arena.node p).kind.reset = .join .notStarted)
    (source : s.newSource = some (p, set)) (inside : t.arena.Has p)
    : ((s.apply t).arena.node p).sourceSet = some set := by
  have there := (frame_foldl joins).has_iff.mpr inside
  simp [Segment.apply, source, Arena.setSource, Arena.node_modify_self _ there]

end Segment

end DataflowPlan
