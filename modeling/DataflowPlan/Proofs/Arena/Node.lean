import DataflowPlan.Arena
import Mathlib.Data.List.Nodup

/-! Arenas read through their nodes: what each change does to the node at each place. -/

namespace DataflowPlan.Arena

/-- The place lies in the arena. -/
def Has (arena : Arena) (id : NodeId) : Prop := id.index < arena.size

instance (arena : Arena) (id : NodeId) : Decidable (arena.Has id) :=
  inferInstanceAs (Decidable (id.index < arena.size))

theorem node_of_not_has {arena : Arena} {id : NodeId} (outside : ¬ arena.Has id)
    : arena.node id = default := by
  have beyond : arena.nodes.length ≤ id.index := Nat.le_of_not_lt outside
  simp [node, beyond]

theorem mem_nodes_iff {arena : Arena} {node : PhysicalNode}
    : node ∈ arena.nodes ↔ ∃ id, arena.Has id ∧ arena.node id = node := by
  constructor
  · intro member
    obtain ⟨index, below, found⟩ := List.getElem_of_mem member
    exact ⟨⟨index⟩, below, by simp [Arena.node, below, found]⟩
  · rintro ⟨id, inside, rfl⟩
    have below : id.index < arena.nodes.length := inside
    simp [Arena.node, below]

@[simp]
theorem size_modify (arena : Arena) (id : NodeId) (change : PhysicalNode → PhysicalNode)
    : (arena.modify id change).size = arena.size := by
  simp [modify, size]

@[simp]
theorem has_modify {arena : Arena} {id other : NodeId} {change : PhysicalNode → PhysicalNode}
    : (arena.modify id change).Has other ↔ arena.Has other := by
  simp [Has]

theorem node_modify (arena : Arena) (id other : NodeId) (change : PhysicalNode → PhysicalNode)
    : (arena.modify id change).node other =
        if other = id ∧ arena.Has id then change (arena.node id) else arena.node other := by
  obtain ⟨index⟩ := id
  obtain ⟨place⟩ := other
  by_cases same : place = index
  · subst same
    by_cases inside : place < arena.nodes.length
    · simp [modify, node, Has, size, inside]
    · simp [modify, node, Has, size, inside]
  · have differs : ¬ index = place := fun h => same h.symm
    simp [modify, node, same, differs]

theorem node_modify_self {arena : Arena} {id : NodeId} (change : PhysicalNode → PhysicalNode)
    (inside : arena.Has id)
    : (arena.modify id change).node id = change (arena.node id) := by
  rw [node_modify, if_pos ⟨rfl, inside⟩]

theorem node_modify_other (arena : Arena) {id other : NodeId}
    (change : PhysicalNode → PhysicalNode) (differs : other ≠ id)
    : (arena.modify id change).node other = arena.node other := by
  rw [node_modify, if_neg fun h => differs h.1]

/-- A change that leaves the blank node as it is need not ask whether the place is in the arena. -/
theorem node_modify_of_default (arena : Arena) (id other : NodeId)
    {change : PhysicalNode → PhysicalNode} (blank : change default = default)
    : (arena.modify id change).node other =
        if other = id then change (arena.node id) else arena.node other := by
  by_cases same : other = id
  · subst same
    by_cases inside : arena.Has other
    · rw [if_pos rfl, node_modify_self change inside]
    · have stays : ¬ (arena.modify other change).Has other := by simpa using inside
      rw [if_pos rfl, node_of_not_has stays, node_of_not_has inside, blank]
  · rw [if_neg same, node_modify_other arena change same]

theorem node_consumeFront (arena : Arena) (id other : NodeId)
    : (arena.consumeFront id).node other =
        if other = id then (arena.node id).consumeFront else arena.node other :=
  node_modify_of_default arena id other rfl

theorem node_rotate (arena : Arena) (id other : NodeId)
    : (arena.rotate id).node other =
        if other = id then (arena.node id).rotate else arena.node other :=
  node_modify_of_default arena id other rfl

/-- Every node knows its place, and no two nodes make one tuple set. -/
structure Sound (arena : Arena) : Prop where
  placed : ∀ id, arena.Has id → (arena.node id).id = id
  distinct : (arena.nodes.map PhysicalNode.output).Nodup

/-- Tuple sets tell the nodes apart. -/
theorem Sound.id_eq {arena : Arena} (sound : arena.Sound) {id other : NodeId}
    (inside : arena.Has id) (otherInside : arena.Has other)
    (same : (arena.node id).output = (arena.node other).output)
    : id = other := by
  have equal : arena.node id = arena.node other :=
    List.inj_on_of_nodup_map sound.distinct (mem_nodes_iff.mpr ⟨id, inside, rfl⟩)
      (mem_nodes_iff.mpr ⟨other, otherInside, rfl⟩) same
  rw [← sound.placed id inside, equal, sound.placed other otherInside]

/-- Look-up finds the place of the node that makes the tuple set. -/
theorem Sound.lookup_eq_some_iff {arena : Arena} (sound : arena.Sound) {output : String}
    {id : NodeId}
    : arena.lookup output = some id ↔ arena.Has id ∧ (arena.node id).output = output := by
  constructor
  · intro found
    obtain ⟨node, here, rfl⟩ := Option.map_eq_some_iff.mp found
    obtain ⟨place, inside, rfl⟩ := mem_nodes_iff.mp (List.mem_of_find?_eq_some here)
    rw [sound.placed place inside]
    exact ⟨inside, by simpa using List.find?_some here⟩
  · rintro ⟨inside, made⟩
    cases found : arena.nodes.find? (·.output == output) with
    | none =>
        have absent := List.find?_eq_none.mp found _ (mem_nodes_iff.mpr ⟨id, inside, rfl⟩)
        simp [made] at absent
    | some node =>
        obtain ⟨place, placeInside, rfl⟩ := mem_nodes_iff.mp (List.mem_of_find?_eq_some found)
        have makes : (arena.node place).output = output := by simpa using List.find?_some found
        have same := sound.id_eq placeInside inside (makes.trans made.symm)
        subst same
        simp [lookup, found, sound.placed place placeInside]

theorem Sound.lookup_eq_none_iff {arena : Arena} (sound : arena.Sound) {output : String}
    : arena.lookup output = none ↔ ∀ id, arena.Has id → (arena.node id).output ≠ output := by
  constructor
  · intro missing id inside made
    have found := sound.lookup_eq_some_iff.mpr ⟨inside, made⟩
    simp [missing] at found
  · intro absent
    cases found : arena.lookup output with
    | none => rfl
    | some id =>
        obtain ⟨inside, made⟩ := sound.lookup_eq_some_iff.mp found
        exact absurd made (absent id inside)

/-- A change that keeps place and atomic of the node keeps the arena in place. -/
theorem Sound.modify {arena : Arena} (sound : arena.Sound) (id : NodeId)
    {change : PhysicalNode → PhysicalNode} (keepsId : ∀ node, (change node).id = node.id)
    (keepsAtomic : ∀ node, (change node).atomic = node.atomic)
    : (arena.modify id change).Sound := by
  refine ⟨?_, ?_⟩
  · intro other inside
    have before : arena.Has other := by simpa using inside
    rw [node_modify]
    split
    · next here => rw [keepsId, ← here.1, sound.placed other before]
    · exact sound.placed other before
  · have same : (arena.modify id change).nodes.map PhysicalNode.output
        = arena.nodes.map PhysicalNode.output := by
      apply List.ext_getElem?
      intro index
      simp only [Arena.modify, List.getElem?_map, List.getElem?_modify]
      split <;> cases arena.nodes[index]? <;> simp [PhysicalNode.output, keepsAtomic]
    rw [same]
    exact sound.distinct

end DataflowPlan.Arena
