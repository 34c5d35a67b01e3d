import DataflowPlan.Proofs.Arena.Mirror
import Mathlib.Algebra.GroupWithZero.Nat

/-! Arenas that differ in how their nodes are numbered. Planning changes such arenas alike, and the
arenas of two graphs with the same computations and consumers are such arenas, in whatever order
their atomics were declared.
-/

namespace DataflowPlan

variable {move : NodeId → NodeId}

/-- The second node is the first one with its consumers at other places. -/
structure PhysicalNode.Moved (move : NodeId → NodeId) (node moved : PhysicalNode) : Prop where
  atomic : moved.atomic = node.atomic
  kind : moved.kind = node.kind
  active : moved.active = node.active.map move
  sourceSet : moved.sourceSet = node.sourceSet

namespace PhysicalNode.Moved

variable {node moved : PhysicalNode} (moves : node.Moved move moved)

include moves

theorem output : moved.output = node.output :=
  congrArg Atomic.output moves.atomic

theorem join? : moved.join? = node.join? := by
  rw [PhysicalNode.join?, PhysicalNode.join?, moves.kind]

theorem hasConsumers : moved.hasConsumers = node.hasConsumers := by
  rw [PhysicalNode.hasConsumers, PhysicalNode.hasConsumers, moves.active, List.isEmpty_map]

theorem cost (stats : Statistics) : moved.cost stats = node.cost stats := by
  rw [PhysicalNode.cost, PhysicalNode.cost, moves.sourceSet]

theorem consumeFront : node.consumeFront.Moved move moved.consumeFront := by
  refine ⟨moves.atomic, moves.kind, ?_, moves.sourceSet⟩
  rw [PhysicalNode.consumeFront, PhysicalNode.consumeFront, moves.active, List.map_drop]

theorem rotate : node.rotate.Moved move moved.rotate := by
  have active := moves.active
  unfold PhysicalNode.rotate
  cases queue : node.active with
  | nil =>
      rw [queue] at active
      rw [active]
      exact moves
  | cons front rest =>
      rw [queue, List.map_cons] at active
      rw [active]
      exact ⟨moves.atomic, moves.kind, by simp, moves.sourceSet⟩

end PhysicalNode.Moved

namespace Arena

/-- The second arena holds the nodes of the first one at other places. -/
structure Moved (move : NodeId → NodeId) (arena moved : Arena) : Prop where
  injective : Function.Injective move
  size : moved.size = arena.size
  has_iff : ∀ p, moved.Has (move p) ↔ arena.Has p
  node : ∀ p, (arena.node p).Moved move (moved.node (move p))

namespace Moved

variable {arena moved : Arena} (moves : arena.Moved move moved)

include moves

/-- The same change to a node here and there. -/
theorem modify (id : NodeId) {change change' : PhysicalNode → PhysicalNode}
    (alike
      : ∀ node other : PhysicalNode,
          node.Moved move other → (change node).Moved move (change' other))
    : (arena.modify id change).Moved move (moved.modify (move id) change') := by
  refine ⟨moves.injective, by simpa using moves.size, by simpa using moves.has_iff, ?_⟩
  intro p
  have here : move p = move id ∧ moved.Has (move id) ↔ p = id ∧ arena.Has id := by
    rw [moves.injective.eq_iff, moves.has_iff]
  rw [node_modify, node_modify]
  by_cases same : p = id ∧ arena.Has id
  · rw [if_pos same, if_pos (here.mpr same)]
    exact alike _ _ (moves.node id)
  · rw [if_neg same, if_neg (here.not.mpr same)]
    exact moves.node p

theorem consumeFront (id : NodeId)
    : (arena.consumeFront id).Moved move (moved.consumeFront (move id)) :=
  moves.modify id fun _ _ alike => alike.consumeFront

theorem rotate (id : NodeId) : (arena.rotate id).Moved move (moved.rotate (move id)) :=
  moves.modify id fun _ _ alike => alike.rotate

theorem setJoin (id : NodeId) (state : JoinState)
    : (arena.setJoin id state).Moved move (moved.setJoin (move id) state) :=
  moves.modify id fun _ _ alike => ⟨alike.atomic, rfl, alike.active, alike.sourceSet⟩

theorem setSource (id : NodeId) (set : SetId)
    : (arena.setSource id set).Moved move (moved.setSource (move id) set) :=
  moves.modify id fun _ _ alike => ⟨alike.atomic, alike.kind, alike.active, rfl⟩

end Moved

end Arena

-----------------------------------------------------------------------------------------------
-- Orders of declaration
-----------------------------------------------------------------------------------------------

/-- The graphs have the same computations, and the same atomics in some other order in which each
tuple set is read by the same consumers in turn.
-/
structure Graph.Reordered (g h : Graph) : Prop where
  computations : h.computations = g.computations
  atomics : h.atomics.Perm g.atomics
  consumers : ∀ tupleSet, h.consumersOf tupleSet = g.consumersOf tupleSet

/-- It is enough to look at the tuple sets that are read. -/
theorem Graph.reordered_of_inputs {g h : Graph} (computations : h.computations = g.computations)
    (atomics : h.atomics.Perm g.atomics)
    (consumers
      : ∀ tupleSet ∈ g.atomics.flatMap Atomic.inputs,
          h.consumersOf tupleSet = g.consumersOf tupleSet)
    : g.Reordered h := by
  refine ⟨computations, atomics, fun tupleSet => ?_⟩
  by_cases read : tupleSet ∈ g.atomics.flatMap Atomic.inputs
  · exact consumers tupleSet read
  · have unread : g.consumersOf tupleSet = [] := by
      refine List.filter_eq_nil_iff.mpr fun a member reads => read ?_
      exact List.mem_flatMap.mpr ⟨a, member, by simpa [Atomic.reads] using reads⟩
    have perm : (h.consumersOf tupleSet).Perm (g.consumersOf tupleSet) := atomics.filter _
    rw [unread] at perm ⊢
    exact perm.eq_nil

namespace Arena

variable {g h : Graph} {arena moved : Arena}

/-- At the beginning as many consumers are to plan as the atomics have altogether. -/
theorem Mirrors.activeCount_eq (mirrors : Mirrors g arena)
    : arena.activeCount = (g.atomics.map fun a => (g.consumersOf a.output).length).sum := by
  have waiting : ∀ node ∈ arena.nodes,
      node.active.length = (g.consumersOf node.atomic.output).length := by
    intro node member
    obtain ⟨p, inside, rfl⟩ := mem_nodes_iff.mp member
    have attached := congrArg List.length (mirrors.attached p inside).consumers
    rw [mirrors.active, ← List.length_map, attached]
    rfl
  have sum : arena.activeCount = (arena.nodes.map fun node => node.active.length).sum := by
    rw [activeCount, List.sum, List.foldr_map]
  rw [sum, List.map_congr_left waiting]
  have perm := mirrors.atomics_perm.map fun a => (g.consumersOf a.output).length
  rw [List.map_map] at perm
  exact perm.sum_nat

/-- Lists of places that stand for the same atomics are the same if the atomics tell the places
apart.
-/
theorem eq_of_map_atomic {left right : List NodeId}
    (apart
      : ∀ p ∈ left, ∀ q ∈ right, (arena.node p).atomic = (arena.node q).atomic → p = q)
    (same
      : left.map (fun p => (arena.node p).atomic) = right.map fun q => (arena.node q).atomic)
    : left = right := by
  induction left generalizing right with
  | nil => exact (List.map_eq_nil_iff.mp same.symm).symm
  | cons head rest ih =>
      cases right with
      | nil => simp at same
      | cons other others =>
          rw [List.map_cons, List.map_cons] at same
          obtain ⟨first, later⟩ := List.cons.inj same
          rw [apart head List.mem_cons_self other List.mem_cons_self first,
            ih (fun p member q known => apart p (List.mem_cons_of_mem _ member) q
              (List.mem_cons_of_mem _ known)) later]

/-- What a node carries at the beginning is told by its atomic and the computations. -/
theorem SourceFits.sourceSet_eq {node other : PhysicalNode} (fits : SourceFits g node)
    (fits' : SourceFits h other) (same : other.atomic = node.atomic)
    (computations : h.computations = g.computations)
    : other.sourceSet = node.sourceSet := by
  rw [SourceFits, same] at fits'
  rw [SourceFits] at fits
  split at fits
  · next scan =>
      rw [if_pos scan] at fits'
      obtain ⟨c, set, found, readable, here⟩ := fits
      obtain ⟨c', set', found', readable', here'⟩ := fits'
      rw [Graph.computation, computations] at found'
      obtain rfl := Except.ok.inj (found.symm.trans found')
      obtain rfl := Except.ok.inj (readable.symm.trans readable')
      rw [here, here']
  · next noScan =>
      rw [if_neg noScan] at fits'
      rw [fits, fits']

/-- If every node goes to the one of the same atomic, its consumers go along. -/
theorem Mirrors.node_moved (mirrors : Mirrors g arena) (other : Mirrors h moved)
    (reordered : g.Reordered h) (has : ∀ p, moved.Has (move p) ↔ arena.Has p)
    (atomic : ∀ p, arena.Has p → (moved.node (move p)).atomic = (arena.node p).atomic)
    (p : NodeId)
    : (arena.node p).Moved move (moved.node (move p)) := by
  by_cases inside : arena.Has p
  · have there := (has p).mpr inside
    have same := atomic p inside
    have attached := mirrors.attached p inside
    have attached' := other.attached _ there
    have consumers : (moved.node (move p)).consumers = (arena.node p).consumers.map move := by
      refine @eq_of_map_atomic moved _ _ ?_ ?_
      · intro c member d listed equal
        obtain ⟨e, known, rfl⟩ := List.mem_map.mp listed
        exact other.sound.id_eq (attached'.inside c member)
          ((has e).mpr (attached.inside e known)) (congrArg Atomic.output equal)
      · rw [attached'.consumers, List.map_map, PhysicalNode.output, same, reordered.consumers]
        refine attached.consumers.symm.trans (List.map_congr_left fun c member => ?_)
        exact (atomic c (attached.inside c member)).symm
    refine ⟨same, ?_, ?_, ?_⟩
    · rw [other.unstarted _ there, mirrors.unstarted p inside, same]
    · rw [other.active, mirrors.active, consumers]
    · exact (mirrors.sources p inside).sourceSet_eq (other.sources _ there) same
        reordered.computations
  · have outside : ¬ moved.Has (move p) := (has p).not.mpr inside
    rw [node_of_not_has inside, node_of_not_has outside]
    exact ⟨rfl, rfl, rfl, rfl⟩

/-- The arena of a reordered graph is the one of the graph with its nodes at other places, and has
no further ones.
Witness: each node goes to the one of the same atomic, and places outside stay where they are.
-/
theorem Mirrors.exists_moved (mirrors : Mirrors g arena) (other : Mirrors h moved)
    (reordered : g.Reordered h)
    : ∃ move, arena.Moved move moved ∧ ∀ q, moved.Has q → ∃ p, move p = q := by
  have size : moved.size = arena.size := by
    rw [mirrors.size_eq, other.size_eq, reordered.atomics.length_eq]
  have exists_place : ∀ p, ∃ q,
      (moved.Has q ↔ arena.Has p)
      ∧ (arena.Has p → (moved.node q).atomic = (arena.node p).atomic)
      ∧ (¬ arena.Has p → q = p) := by
    intro p
    by_cases inside : arena.Has p
    · obtain ⟨q, there, same⟩ :=
        other.covers _ (reordered.atomics.mem_iff.mpr (mirrors.known p inside))
      exact ⟨q, by simp [there, inside], fun _ => same, fun outside => absurd inside outside⟩
    · have outside : ¬ moved.Has p := by
        rw [Has, size]
        exact inside
      exact ⟨p, by simp [inside, outside], fun there => absurd there inside, fun _ => rfl⟩
  choose move has atomic stays using exists_place
  have injective : Function.Injective move := by
    intro p q same
    have inside : arena.Has p ↔ arena.Has q := by rw [← has, ← has, same]
    by_cases here : arena.Has p
    · have equal := (atomic p here).symm.trans (same ▸ atomic q (inside.mp here))
      exact mirrors.sound.id_eq here (inside.mp here) (congrArg Atomic.output equal)
    · rw [← stays p here, same, stays q fun there => here (inside.mpr there)]
  refine ⟨move, ⟨injective, size, has, mirrors.node_moved other reordered has atomic⟩, ?_⟩
  intro q there
  obtain ⟨p, inside, same⟩ :=
    mirrors.covers _ (reordered.atomics.mem_iff.mp (other.known q there))
  have equal := (atomic p inside).trans same
  exact ⟨p, other.sound.id_eq ((has p).mpr inside) there (congrArg Atomic.output equal)⟩

end Arena

end DataflowPlan
