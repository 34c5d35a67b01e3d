import DataflowPlan.Proofs.Arena.Wiring

/-! The arena of a valid graph has one node for each atomic, and its edges are those of the graph.
The walk from the scans reaches every atomic, as each one reads something unless it is a scan, and
no tuple set is made from itself.
-/

namespace DataflowPlan.Arena

/-- The node of a scan, which carries the scanned set from the start. -/
def scanNode (id : NodeId) (scan : Atomic) (set : SetId) : PhysicalNode :=
  { PhysicalNode.ofAtomic id scan with sourceSet := some set }

theorem setSource_push (arena : Arena) (scan : Atomic) (set : SetId)
    : (arena.push (.ofAtomic ⟨arena.size⟩ scan)).setSource ⟨arena.size⟩ set
      = arena.push (scanNode ⟨arena.size⟩ scan set) := by
  have behind : ∀ (node : PhysicalNode) (nodes : List PhysicalNode),
      (nodes ++ [node]).modify nodes.length (fun node => { node with sourceSet := some set })
        = nodes ++ [{ node with sourceSet := some set }] := by
    intro node nodes
    induction nodes with
    | nil => rfl
    | cons head rest ih => simpa using ih
  exact congrArg Arena.mk (behind (.ofAtomic ⟨arena.size⟩ scan) arena.nodes)

/-- A scan that has no node yet gets one behind the others, which carries the scanned set; what the
walk adds then are no scans.
-/
theorem Partial.addScan {g : Graph} (valid : g.Valid) {arena next : Arena} {scan : Atomic}
    {id : NodeId} (part : Partial g arena (expanded g arena [])) (known : scan ∈ g.atomics)
    (isScan : scan.kind = .scan)
    (absent : ∀ id, arena.Has id → (arena.node id).atomic ≠ scan)
    (added : Arena.addScan g arena scan = .ok (next, id))
    : Partial g next (expanded g next [])
      ∧ next.Holds arena
      ∧ next.Has id
      ∧ (next.node id).atomic = scan
      ∧ ∀ other,
          next.Has other →
            (next.node other).atomic.kind = .scan → arena.Has other ∨ other = id := by
  have missing : arena.lookup scan.output = none := by
    refine part.sound.lookup_eq_none_iff.mpr fun id inside same => ?_
    exact absent id inside (valid.atomic_eq (part.known id inside) known same)
  rw [Arena.addScan, Except.bind_eq_ok] at added
  obtain ⟨c, found, added⟩ := added
  rw [Except.bind_eq_ok] at added
  obtain ⟨set, readable, added⟩ := added
  rw [insert_of_missing missing] at added
  simp only [setSource_push, Except.pure_eq, Except.ok.injEq, Prod.mk.injEq] at added
  obtain ⟨rfl, rfl⟩ := added
  have source : SourceFits g (scanNode ⟨arena.size⟩ scan set) := by
    have same : (scanNode ⟨arena.size⟩ scan set).atomic = scan := rfl
    rw [SourceFits, same, if_pos isScan]
    exact ⟨c, set, found, readable, rfl⟩
  have pushed := part.push (scanNode ⟨arena.size⟩ scan set)
    ⟨rfl, missing, known, rfl, rfl, rfl, source⟩
  rw [← (adds_push arena (scanNode ⟨arena.size⟩ scan set)).expanded g [], List.append_nil]
    at pushed
  obtain ⟨part, grown⟩ := pushed.grow valid g.atomics.length (by simp)
    (by simp [has_push]) (by simp)
  refine ⟨part, grown.toHolds.trans (holds_push arena _), grown.has _ (has_push.mpr (.inr rfl)),
    ?_, ?_⟩
  · rw [grown.atomic _ (has_push.mpr (.inr rfl)), node_push_new]
    rfl
  · intro other inside isScan
    by_cases before : (arena.push (scanNode ⟨arena.size⟩ scan set)).Has other
    · exact has_push.mp before
    · exact absurd isScan (grown.noScan other inside before)

/-- Scans that have no nodes yet get theirs in turn.
Witness: induction on the scans; the walk from one adds no scan, so the others are still without.
-/
theorem Partial.addScans {g : Graph} (valid : g.Valid) (scans : List Atomic)
    {arena next : Arena} {ids : List NodeId} (part : Partial g arena (expanded g arena []))
    (known : ∀ a ∈ scans, a ∈ g.atomics) (areScans : ∀ a ∈ scans, a.kind = .scan)
    (unique : scans.Nodup)
    (absent : ∀ a ∈ scans, ∀ id, arena.Has id → (arena.node id).atomic ≠ a)
    (added : Arena.addScans g scans arena = .ok (next, ids))
    : Partial g next (expanded g next [])
      ∧ next.Holds arena
      ∧ (∀ id ∈ ids, next.Has id)
      ∧ ids.map (fun id => (next.node id).atomic) = scans := by
  induction scans generalizing arena next ids with
  | nil =>
      simp only [Arena.addScans, Except.pure_eq, Except.ok.injEq, Prod.mk.injEq] at added
      obtain ⟨rfl, rfl⟩ := added
      exact ⟨part, .refl _, by simp, rfl⟩
  | cons head rest ih =>
      obtain ⟨headFresh, unique⟩ := List.nodup_cons.mp unique
      rw [Arena.addScans, Except.bind_eq_ok] at added
      obtain ⟨⟨middle, first⟩, addedFirst, added⟩ := added
      simp only [Except.bind_eq_ok] at added
      obtain ⟨⟨last, others⟩, addedRest, added⟩ := added
      simp only [Except.pure_eq, Except.ok.injEq, Prod.mk.injEq] at added
      obtain ⟨rfl, rfl⟩ := added
      obtain ⟨part, holds, there, made, scansOf⟩ := part.addScan valid (known head (by simp))
        (areScans head (by simp)) (absent head (by simp)) addedFirst
      have absentAfter : ∀ a ∈ rest, ∀ id, middle.Has id → (middle.node id).atomic ≠ a := by
        intro a member id inside same
        have isScan : (middle.node id).atomic.kind = .scan :=
          same ▸ areScans a (by simp [member])
        rcases scansOf id inside isScan with before | rfl
        · exact absent a (by simp [member]) id before ((holds.atomic id before).symm.trans same)
        · exact headFresh (made ▸ same ▸ member)
      obtain ⟨part, holds', inside, atomics⟩ := ih part (fun a member => known a (by simp [member]))
        (fun a member => areScans a (by simp [member])) unique absentAfter addedRest
      refine ⟨part, holds'.trans holds, ?_, ?_⟩
      · intro id member
        rcases List.mem_cons.mp member with rfl | later
        · exact holds'.has id there
        · exact inside id later
      · rw [List.map_cons, atomics, holds'.atomic first there, made]

/-- An arena of the graph in which nothing is planned yet: no join is started, all consumers are
still to come, and the scans are the only sources.
-/
structure Mirrors (g : Graph) (arena : Arena) : Prop extends Wired g arena where
  unstarted : ∀ id, arena.Has id → (arena.node id).kind = .ofAtomic (arena.node id).atomic.kind
  active : ∀ id, (arena.node id).active = (arena.node id).consumers
  sources : ∀ id, arena.Has id → SourceFits g (arena.node id)

theorem partial_empty (g : Graph) : Partial g .empty (expanded g .empty []) := by
  have outside : ∀ id, ¬ Arena.empty.Has id := fun id inside => Nat.not_lt_zero _ inside
  have blank : ∀ id, Arena.empty.node id = default := fun id => node_of_not_has (outside id)
  have nothing : ∀ id, expanded g .empty [] id = [] := by simp [expanded, outside]
  exact {
    sound := ⟨fun id inside => absurd inside (outside id), List.nodup_nil⟩
    known := fun id inside => absurd inside (outside id)
    kinds := fun id inside => absurd inside (outside id)
    active := fun id => by rw [blank]; rfl
    sources := fun id inside => absurd inside (outside id)
    attached := fun id => by
      rw [nothing]
      refine ⟨?_, by rw [blank]; rfl⟩
      rw [blank]
      exact fun c member => absurd member List.not_mem_nil
  }

/-- Every atomic has a node once the scans have theirs and every node has its consumers.
Witness: induction on the rank; an atomic that is no scan reads something, whose maker has a node
with all consumers attached.
-/
theorem Partial.covers {g : Graph} (valid : g.Valid) {arena : Arena}
    (part : Partial g arena (expanded g arena []))
    (scans : ∀ a ∈ g.scans, ∃ id, arena.Has id ∧ (arena.node id).atomic = a)
    : ∀ a ∈ g.atomics, ∃ id, arena.Has id ∧ (arena.node id).atomic = a := by
  obtain ⟨rank, -, lower⟩ := Graph.exists_rank valid.distinct valid.ordered
  intro a
  induction below : rank a.output using Nat.strongRecOn generalizing a with
  | _ n ih =>
      intro member
      by_cases isScan : a.kind = .scan
      · exact scans a (List.mem_filter.mpr ⟨member, by simpa using isScan⟩)
      · have reading : a.inputs ≠ [] := by
          have fit := valid.fit a member
          intro none
          cases kind : a.kind <;> simp [Atomic.hasFitInputs, kind, none] at fit isScan
        obtain ⟨input, read⟩ := List.exists_mem_of_ne_nil _ reading
        obtain ⟨b, producer, rfl⟩ := valid.exists_producer member read
        obtain ⟨id, inside, made⟩ :=
          ih (rank b.output) (below ▸ lower a member _ read) b rfl producer
        have attached := part.attached id
        have consumer : a ∈ g.consumersOf (arena.node id).output :=
          Graph.mem_consumersOf.mpr ⟨member, by rw [PhysicalNode.output, made]; exact read⟩
        have list : expanded g arena [] id = g.consumersOf (arena.node id).output := by
          simp [expanded, inside]
        rw [← list, ← attached.consumers] at consumer
        obtain ⟨c, there, same⟩ := List.mem_map.mp consumer
        exact ⟨c, attached.inside c there, same⟩

/-- What construction establishes: the arena mirrors the graph, and the places given are those of
the scans in their order.
-/
theorem mirrors_of_ofGraph {g : Graph} {arena : Arena} {scans : List NodeId}
    (built : Arena.ofGraph g = .ok (arena, scans))
    : Mirrors g arena
      ∧ (∀ id ∈ scans, arena.Has id)
      ∧ scans.map (fun id => (arena.node id).atomic) = g.scans := by
  rw [Arena.ofGraph, Except.bind_eq_ok] at built
  obtain ⟨⟨⟩, passed, added⟩ := built
  have valid := Graph.valid_of_validate passed
  have unique : g.scans.Nodup := by
    have distinct : g.atomics.Nodup := List.Nodup.of_map _ valid.distinct
    exact distinct.filter _
  have outside : ∀ id, ¬ Arena.empty.Has id := fun id inside => Nat.not_lt_zero _ inside
  obtain ⟨part, -, inside, atomics⟩ := (partial_empty g).addScans valid g.scans
    (fun a member => (List.mem_filter.mp member).1)
    (fun a member => by simpa using (List.mem_filter.mp member).2) unique
    (fun a _ id there => absurd there (outside id)) added
  have covers := part.covers valid fun a member => by
    rw [← atomics] at member
    obtain ⟨id, there, made⟩ := List.mem_map.mp member
    exact ⟨id, inside id there, made⟩
  have attached : ∀ id, arena.Has id →
      arena.Attached id (g.consumersOf (arena.node id).output) := by
    intro id there
    have list : expanded g arena [] id = g.consumersOf (arena.node id).output := by
      simp [expanded, there]
    exact list ▸ part.attached id
  refine ⟨?_, inside, atomics⟩
  exact {
    valid
    sound := part.sound
    known := part.known
    covers
    kinds := fun id there => by rw [part.kinds id there, NodeKind.reset_ofAtomic]
    attached
    unstarted := part.kinds
    active := part.active
    sources := part.sources
  }

end DataflowPlan.Arena
