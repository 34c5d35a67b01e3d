import DataflowPlan.Proofs.Arena.Mirror
import DataflowPlan.Proofs.Graph.WellFormed

/-! What the construction of an arena comes to, read node by node: every atomic has one node, and a
node has the nodes of the graph's consumers as its own, in their order.
-/

namespace DataflowPlan.Arena

/-- The node shows its atomic. It stands at its place and is found by the tuple set it makes; its
consumers are the nodes of the atomics that read this tuple set, each once and in the order of the
graph, and all of them are still to come. It carries a set exactly if the atomic is a scan, the one
that the computation names.
-/
structure Shows (g : Graph) (arena : Arena) (index : Nat) (node : PhysicalNode) : Prop where
  placed : node.id = ⟨index⟩
  found : arena.lookup node.output = some ⟨index⟩
  kind : node.kind = .ofAtomic node.atomic.kind
  consumers
    : node.consumers.map some
        = (g.consumersOf node.output).map fun consumer => arena.lookup consumer.output
  once : node.consumers.Nodup
  active : node.active = node.consumers
  source : SourceFits g node

/-- The arena has one node for each atomic, each of which shows it, and the places given are those
of the scans in the order of declaration.
-/
structure Reflects (g : Graph) (arena : Arena) (scans : List NodeId) : Prop where
  atomics : (arena.nodes.map PhysicalNode.atomic).Perm g.atomics
  nodes : ∀ index node, arena.nodes[index]? = some node → Shows g arena index node
  scans : scans.map some = g.scans.map fun scan => arena.lookup scan.output

theorem node_of_getElem? {arena : Arena} {index : Nat} {node : PhysicalNode}
    (there : arena.nodes[index]? = some node)
    : arena.Has ⟨index⟩ ∧ arena.node ⟨index⟩ = node := by
  obtain ⟨below, -⟩ := List.getElem?_eq_some_iff.mp there
  exact ⟨below, by simp [Arena.node, there]⟩

/-- Look-up leads from the atomics of places back to the places. -/
theorem Sound.map_lookup {arena : Arena} (sound : arena.Sound) {ids : List NodeId}
    {atomics : List Atomic} (inside : ∀ id ∈ ids, arena.Has id)
    (made : ids.map (fun id => (arena.node id).atomic) = atomics)
    : ids.map some = atomics.map fun a => arena.lookup a.output := by
  rw [← made, List.map_map]
  refine List.map_congr_left fun id member => Eq.symm ?_
  exact sound.lookup_eq_some_iff.mpr ⟨inside id member, rfl⟩

/-- Every node of an arena that mirrors the graph shows its atomic. -/
theorem Mirrors.shows {g : Graph} {arena : Arena} (mirrors : Mirrors g arena) {id : NodeId}
    (inside : arena.Has id)
    : Shows g arena id.index (arena.node id) := by
  have attached := mirrors.attached id inside
  exact {
    placed := mirrors.sound.placed id inside
    found := mirrors.sound.lookup_eq_some_iff.mpr ⟨inside, rfl⟩
    kind := mirrors.unstarted id inside
    consumers := mirrors.sound.map_lookup attached.inside attached.consumers
    once := mirrors.toWired.consumers_nodup id
    active := mirrors.active id
    source := mirrors.sources id inside
  }

/-- The arena that is constructed for a graph reflects it, however often an atomic reads a tuple set
and from however many scans it is reached.
-/
theorem reflects_of_ofGraph {g : Graph} {arena : Arena} {scans : List NodeId}
    (built : Arena.ofGraph g = .ok (arena, scans))
    : Reflects g arena scans := by
  obtain ⟨mirrors, inside, atomics⟩ := mirrors_of_ofGraph built
  refine ⟨mirrors.toWired.atomics_perm, ?_, mirrors.sound.map_lookup inside atomics⟩
  intro index node there
  obtain ⟨has, rfl⟩ := node_of_getElem? there
  exact mirrors.shows has

theorem readTwice_reflects
    : ∃ arena scans,
        Arena.ofGraph .readTwice = .ok (arena, scans)
        ∧ arena.nodes.map PhysicalNode.output = ["l", "merged", "out", "r"]
        ∧ scans = [⟨0⟩, ⟨3⟩]
        ∧ Reflects .readTwice arena scans := by
  have evaluated : (Arena.ofGraph .readTwice).toOption.map
      (fun built => (built.1.nodes.map PhysicalNode.output, built.2))
      = some (["l", "merged", "out", "r"], [⟨0⟩, ⟨3⟩]) := by
    decide +kernel
  obtain ⟨⟨arena, scans⟩, built, evaluated⟩ := Except.toOption_map_eq_some_iff.mp evaluated
  simp only [Prod.mk.injEq] at evaluated
  exact ⟨arena, scans, built, evaluated.1, evaluated.2, reflects_of_ofGraph built⟩

end DataflowPlan.Arena
