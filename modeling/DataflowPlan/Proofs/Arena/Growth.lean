import DataflowPlan.Arena.Construction
import DataflowPlan.Proofs.Arena.Node
import DataflowPlan.Proofs.Graph.Valid

/-! How an arena grows from a scan: the walk attaches the consumers of each node once, in the order
of the graph, and the nodes it adds are not scans.
-/

namespace DataflowPlan.Arena

/-- The node's consumers are the nodes of the atomics, in their order. -/
structure Attached (arena : Arena) (id : NodeId) (atomics : List Atomic) : Prop where
  inside : ∀ c ∈ (arena.node id).consumers, arena.Has c
  consumers : (arena.node id).consumers.map (fun c => (arena.node c).atomic) = atomics

/-- A scan carries the set that its computation names; no other node carries a set. -/
def SourceFits (g : Graph) (node : PhysicalNode) : Prop :=
  if node.atomic.kind = .scan then
    ∃ c set,
      g.computation node.atomic.computation = .ok c
      ∧ c.sourceSet = .ok set
      ∧ node.sourceSet = some set
  else node.sourceSet = none

/-- An arena in which each node has those consumers that were seen so far. -/
structure Partial (g : Graph) (arena : Arena) (seen : NodeId → List Atomic) : Prop where
  sound : arena.Sound
  known : ∀ id, arena.Has id → (arena.node id).atomic ∈ g.atomics
  kinds : ∀ id, arena.Has id → (arena.node id).kind = .ofAtomic (arena.node id).atomic.kind
  active : ∀ id, (arena.node id).active = (arena.node id).consumers
  sources : ∀ id, arena.Has id → SourceFits g (arena.node id)
  attached : ∀ id, arena.Attached id (seen id)

/-- The arena holds the other one: the same atomics at the same places, and more behind them. -/
structure Holds (arena earlier : Arena) : Prop where
  has : ∀ id, earlier.Has id → arena.Has id
  atomic : ∀ id, earlier.Has id → (arena.node id).atomic = (earlier.node id).atomic

theorem Holds.refl (arena : Arena) : arena.Holds arena :=
  ⟨fun _ inside => inside, fun _ _ => rfl⟩

theorem Holds.trans {last middle first : Arena} (later : last.Holds middle)
    (before : middle.Holds first)
    : last.Holds first :=
  ⟨fun id inside => later.has id (before.has id inside),
    fun id inside => (later.atomic id (before.has id inside)).trans (before.atomic id inside)⟩

theorem holds_modify (arena : Arena) (id : NodeId) {change : PhysicalNode → PhysicalNode}
    (keepsAtomic : ∀ node, (change node).atomic = node.atomic)
    : (arena.modify id change).Holds arena := by
  refine ⟨fun other inside => by simpa using inside, ?_⟩
  intro other inside
  rw [node_modify]
  split
  · next here => rw [keepsAtomic, here.1]
  · rfl

theorem holds_addConsumer (arena : Arena) (producer consumer : NodeId)
    : (arena.addConsumer producer consumer).Holds arena :=
  holds_modify arena producer fun _ => rfl

/-- Attached consumers stay attached as the arena grows, if the node keeps its list. -/
theorem Attached.of_holds {arena earlier : Arena} {id : NodeId} {atomics : List Atomic}
    (attached : earlier.Attached id atomics) (holds : arena.Holds earlier)
    (same : (arena.node id).consumers = (earlier.node id).consumers)
    : arena.Attached id atomics := by
  refine ⟨?_, ?_⟩
  · rw [same]
    exact fun c member => holds.has c (attached.inside c member)
  · rw [same, ← attached.consumers]
    exact List.map_congr_left fun c member => holds.atomic c (attached.inside c member)

/-- The arena with one more node behind all others. -/
def push (arena : Arena) (node : PhysicalNode) : Arena := ⟨arena.nodes ++ [node]⟩

theorem has_push {arena : Arena} {node : PhysicalNode} {id : NodeId}
    : (arena.push node).Has id ↔ arena.Has id ∨ id = ⟨arena.size⟩ := by
  obtain ⟨index⟩ := id
  simp only [Has, size, push, List.length_append, List.length_singleton, NodeId.mk.injEq]
  omega

@[simp]
theorem size_push (arena : Arena) (node : PhysicalNode)
    : (arena.push node).size = arena.size + 1 := by
  simp [push, size]

theorem node_push_of_has {arena : Arena} (node : PhysicalNode) {id : NodeId}
    (inside : arena.Has id)
    : (arena.push node).node id = arena.node id := by
  have below : id.index < arena.nodes.length := inside
  simp [push, Arena.node, List.getElem?_append_left below]

theorem node_push_new (arena : Arena) (node : PhysicalNode)
    : (arena.push node).node ⟨arena.size⟩ = node := by
  simp [push, Arena.node, size]

theorem not_has_size (arena : Arena) : ¬ arena.Has ⟨arena.size⟩ :=
  Nat.lt_irrefl _

theorem holds_push (arena : Arena) (node : PhysicalNode) : (arena.push node).Holds arena :=
  ⟨fun _ inside => has_push.mpr (.inl inside),
    fun _ inside => by rw [node_push_of_has node inside]⟩

theorem insert_of_found {arena : Arena} {atomic : Atomic} {id : NodeId}
    (found : arena.lookup atomic.output = some id)
    : arena.insert atomic = (arena, id, false) := by
  simp [insert, found]

theorem insert_of_missing {arena : Arena} {atomic : Atomic}
    (missing : arena.lookup atomic.output = none)
    : arena.insert atomic
      = (arena.push (.ofAtomic ⟨arena.size⟩ atomic), ⟨arena.size⟩, true) := by
  simp [insert, missing, push]

/-- A node that can be put behind the others: it knows its place, has no consumers yet, and makes
a tuple set that no other node makes.
-/
structure Fresh (g : Graph) (arena : Arena) (node : PhysicalNode) : Prop where
  placed : node.id = ⟨arena.size⟩
  missing : arena.lookup node.output = none
  known : node.atomic ∈ g.atomics
  kind : node.kind = .ofAtomic node.atomic.kind
  consumers : node.consumers = []
  active : node.active = []
  source : SourceFits g node

/-- One more node behind the others has no consumers yet and changes no other node. -/
theorem Partial.push {g : Graph} {arena : Arena} {seen : NodeId → List Atomic}
    (part : Partial g arena seen) (node : PhysicalNode) (fresh : Fresh g arena node)
    : Partial g (arena.push node) seen := by
  -- each place is an old one or the new one
  have cases_node : ∀ {P : PhysicalNode → Prop},
      (∀ id, arena.Has id → P (arena.node id)) → P node →
        ∀ id, (arena.push node).Has id → P ((arena.push node).node id) := by
    intro P old new id inside
    rcases has_push.mp inside with before | rfl
    · rw [node_push_of_has node before]
      exact old id before
    · rw [node_push_new]
      exact new
  refine ⟨⟨?_, ?_⟩, ?_, ?_, ?_, ?_, ?_⟩
  · intro id inside
    rcases has_push.mp inside with before | rfl
    · rw [node_push_of_has node before, part.sound.placed id before]
    · rw [node_push_new, fresh.placed]
  · have absent := part.sound.lookup_eq_none_iff.mp fresh.missing
    simp only [Arena.push, List.map_append, List.map_singleton]
    refine List.nodup_append.mpr ⟨part.sound.distinct, by simp, ?_⟩
    intro output member other single same
    obtain ⟨old, inArena, rfl⟩ := List.mem_map.mp member
    obtain ⟨id, inside, rfl⟩ := mem_nodes_iff.mp inArena
    exact absent id inside (same.trans (List.mem_singleton.mp single))
  · exact cases_node (P := fun node => node.atomic ∈ g.atomics) part.known fresh.known
  · exact cases_node (P := fun node => node.kind = .ofAtomic node.atomic.kind) part.kinds fresh.kind
  · intro id
    by_cases inside : (arena.push node).Has id
    · exact cases_node (P := fun node => node.active = node.consumers) (fun id _ => part.active id)
        (fresh.active.trans fresh.consumers.symm) id inside
    · rw [node_of_not_has inside]
      rfl
  · exact cases_node (P := SourceFits g) part.sources fresh.source
  · intro id
    refine (part.attached id).of_holds (holds_push arena node) ?_
    by_cases inside : (arena.push node).Has id
    · rcases has_push.mp inside with before | rfl
      · rw [node_push_of_has node before]
      · rw [node_push_new, fresh.consumers, node_of_not_has arena.not_has_size]
        rfl
    · rw [node_of_not_has inside, node_of_not_has fun before => inside (has_push.mpr (.inl before))]

theorem node_addConsumer {arena : Arena} {producer : NodeId} (inside : arena.Has producer)
    (consumer id : NodeId)
    : (arena.addConsumer producer consumer).node id
        = if id = producer then (arena.node producer).addConsumer consumer else arena.node id := by
  simp [Arena.addConsumer, node_modify, inside]

theorem Attached.addConsumer {arena : Arena} {id consumer : NodeId} {atomics : List Atomic}
    (attached : arena.Attached id atomics) (inside : arena.Has id)
    (consumerInside : arena.Has consumer)
    : (arena.addConsumer id consumer).Attached id
        (atomics ++ [(arena.node consumer).atomic]) := by
  have holds := holds_addConsumer arena id consumer
  have list : ((arena.addConsumer id consumer).node id).consumers
      = (arena.node id).consumers ++ [consumer] := by
    rw [node_addConsumer inside, if_pos rfl]
    rfl
  have within : ∀ c ∈ (arena.node id).consumers ++ [consumer], arena.Has c := by
    intro c member
    rcases List.mem_append.mp member with old | new
    · exact attached.inside c old
    · exact List.mem_singleton.mp new ▸ consumerInside
  refine ⟨?_, ?_⟩
  · rw [list]
    exact fun c member => holds.has c (within c member)
  · rw [list, List.map_congr_left fun c member => holds.atomic c (within c member),
      List.map_append, attached.consumers]
    rfl

/-- One more consumer of a node is attached behind the others. -/
theorem Partial.addConsumer {g : Graph} {arena : Arena} {seen : NodeId → List Atomic}
    (part : Partial g arena seen) {producer consumer : NodeId} (inside : arena.Has producer)
    (consumerInside : arena.Has consumer)
    : Partial g (arena.addConsumer producer consumer)
        (Function.update seen producer
          (seen producer ++ [(arena.node consumer).atomic])) := by
  have kept : ∀ {P : PhysicalNode → Prop},
      (∀ node, P node → P (node.addConsumer consumer)) →
        ∀ id, P (arena.node id) → P ((arena.addConsumer producer consumer).node id) := by
    intro P keeps id holds
    rw [node_addConsumer inside]
    split
    · next same => exact keeps _ (same ▸ holds)
    · exact holds
  refine ⟨part.sound.modify producer (fun _ => rfl) (fun _ => rfl), ?_, ?_, ?_, ?_, ?_⟩
  · intro id there
    exact kept (P := fun node => node.atomic ∈ g.atomics) (fun _ known => known) id
      (part.known id (has_modify.mp there))
  · intro id there
    exact kept (P := fun node => node.kind = .ofAtomic node.atomic.kind) (fun _ same => same) id
      (part.kinds id (has_modify.mp there))
  · intro id
    refine kept (P := fun node => node.active = node.consumers) (fun node same => ?_) id
      (part.active id)
    simp [PhysicalNode.addConsumer, same]
  · intro id there
    exact kept (P := SourceFits g) (fun _ fits => fits) id (part.sources id (has_modify.mp there))
  · intro id
    by_cases same : id = producer
    · subst same
      rw [Function.update_self]
      exact (part.attached id).addConsumer inside consumerInside
    · rw [Function.update_of_ne same]
      exact (part.attached id).of_holds (holds_addConsumer arena producer consumer)
        (by rw [node_addConsumer inside, if_neg same])

/-- The arena is the other one with these places beside, each of them new. -/
structure Adds (arena earlier : Arena) (fresh : List NodeId) : Prop
    extends arena.Holds earlier where
  unique : fresh.Nodup
  places : ∀ id, arena.Has id ↔ earlier.Has id ∨ id ∈ fresh
  new : ∀ id ∈ fresh, ¬ earlier.Has id
  size : arena.size = earlier.size + fresh.length

theorem Adds.refl (arena : Arena) : arena.Adds arena [] :=
  ⟨.refl arena, List.nodup_nil, by simp, by simp, by simp⟩

theorem Adds.trans {last middle first : Arena} {late early : List NodeId}
    (later : last.Adds middle late) (before : middle.Adds first early)
    : last.Adds first (late ++ early) := by
  refine ⟨later.toHolds.trans before.toHolds, ?_, ?_, ?_, ?_⟩
  · refine List.nodup_append.mpr ⟨later.unique, before.unique, ?_⟩
    rintro id after other earlier rfl
    exact later.new id after ((before.places id).mpr (.inr earlier))
  · intro id
    rw [later.places, before.places, List.mem_append, or_assoc, or_comm (a := id ∈ early)]
  · intro id member
    rcases List.mem_append.mp member with after | earlier
    · exact fun there => later.new id after (before.has id there)
    · exact before.new id earlier
  · rw [later.size, before.size, List.length_append]
    omega

theorem adds_addConsumer (arena : Arena) (producer consumer : NodeId)
    : (arena.addConsumer producer consumer).Adds arena [] :=
  ⟨holds_addConsumer arena producer consumer, List.nodup_nil, by simp [Arena.addConsumer],
    by simp, by simp [Arena.addConsumer]⟩

theorem adds_push (arena : Arena) (node : PhysicalNode)
    : (arena.push node).Adds arena [⟨arena.size⟩] :=
  ⟨holds_push arena node, by simp, by simp [has_push], by simp [not_has_size], by simp⟩

/-- What the walk adds to an arena are no scans. -/
structure Grown (arena earlier : Arena) : Prop extends arena.Holds earlier where
  noScan : ∀ id, arena.Has id → ¬ earlier.Has id → (arena.node id).atomic.kind ≠ .scan

theorem Grown.refl (arena : Arena) : arena.Grown arena :=
  ⟨.refl arena, fun _ inside outside => absurd inside outside⟩

theorem Grown.trans {last middle first : Arena} (later : last.Grown middle)
    (before : middle.Grown first)
    : last.Grown first := by
  refine ⟨later.toHolds.trans before.toHolds, ?_⟩
  intro id inside outside
  by_cases added : middle.Has id
  · rw [later.atomic id added]
    exact before.noScan id added outside
  · exact later.noScan id inside added

theorem Adds.grown {arena earlier : Arena} {fresh : List NodeId}
    (adds : arena.Adds earlier fresh)
    (noScan : ∀ id ∈ fresh, (arena.node id).atomic.kind ≠ .scan)
    : arena.Grown earlier :=
  ⟨adds.toHolds,
    fun id inside outside => noScan id (((adds.places id).mp inside).resolve_left outside)⟩

/-- Attaching an atomic puts its node behind the others unless it has one already.
Witness: look-up of its tuple set decides, as no two nodes make one.
-/
theorem Partial.attach {g : Graph} (valid : g.Valid) {arena : Arena} {seen : NodeId → List Atomic}
    (part : Partial g arena seen) {producer : NodeId} (inside : arena.Has producer) {a : Atomic}
    (known : a ∈ g.atomics) (noScan : a.kind ≠ .scan) (pending : List NodeId)
    : ∃ next fresh,
        Arena.attach producer (arena, pending) a = (next, fresh ++ pending)
        ∧ Partial g next (Function.update seen producer (seen producer ++ [a]))
        ∧ next.Grown arena
        ∧ next.Adds arena fresh := by
  cases found : arena.lookup a.output with
  | some id =>
      obtain ⟨there, made⟩ := part.sound.lookup_eq_some_iff.mp found
      have same : (arena.node id).atomic = a := valid.atomic_eq (part.known id there) known made
      have attached := part.addConsumer inside there
      rw [same] at attached
      have adds := adds_addConsumer arena producer id
      exact ⟨_, [], by simp [Arena.attach, insert_of_found found], attached,
        adds.grown (by simp), adds⟩
  | none =>
      have source : SourceFits g (.ofAtomic ⟨arena.size⟩ a) := by
        simp [SourceFits, PhysicalNode.ofAtomic, noScan]
      have pushed := part.push (.ofAtomic ⟨arena.size⟩ a)
        ⟨rfl, found, known, rfl, rfl, rfl, source⟩
      have attached := pushed.addConsumer (has_push.mpr (.inl inside)) (has_push.mpr (.inr rfl))
      rw [node_push_new] at attached
      have behind := adds_push arena (.ofAtomic ⟨arena.size⟩ a)
      have linked := adds_addConsumer (arena.push (.ofAtomic ⟨arena.size⟩ a)) producer ⟨arena.size⟩
      refine ⟨_, [⟨arena.size⟩], by simp [Arena.attach, insert_of_missing found], attached, ?_,
        linked.trans behind⟩
      refine (linked.grown (by simp)).trans (behind.grown ?_)
      intro id member
      rw [List.mem_singleton.mp member, node_push_new]
      exact noScan

/-- Attaching atomics in turn gives the producer all of them as consumers, in their order.
Witness: induction on the atomics.
-/
theorem Partial.attachAll {g : Graph} (valid : g.Valid) (atomics : List Atomic) {arena : Arena}
    {seen : NodeId → List Atomic} (part : Partial g arena seen) {producer : NodeId}
    (inside : arena.Has producer) (known : ∀ a ∈ atomics, a ∈ g.atomics)
    (noScan : ∀ a ∈ atomics, a.kind ≠ .scan) (pending : List NodeId)
    : ∃ next fresh,
        atomics.foldl (Arena.attach producer) (arena, pending) = (next, fresh ++ pending)
        ∧ Partial g next (Function.update seen producer (seen producer ++ atomics))
        ∧ next.Grown arena
        ∧ next.Adds arena fresh := by
  induction atomics generalizing arena seen pending with
  | nil => exact ⟨arena, [], rfl, by simpa using part, .refl arena, .refl arena⟩
  | cons head rest ih =>
      obtain ⟨middle, first, attached, part, grown, adds⟩ :=
        part.attach valid inside (known head (by simp)) (noScan head (by simp)) pending
      obtain ⟨next, fresh, folded, part, grown', adds'⟩ :=
        ih part (grown.has producer inside) (fun a member => known a (by simp [member]))
          (fun a member => noScan a (by simp [member])) (first ++ pending)
      refine ⟨next, fresh ++ first, ?_, ?_, grown'.trans grown, adds'.trans adds⟩
      · rw [List.foldl_cons, attached, folded, List.append_assoc]
      · simpa [List.append_assoc] using part

/-- Every node of the arena has its consumers, but for those still pending. -/
def expanded (g : Graph) (arena : Arena) (pending : List NodeId) (id : NodeId) : List Atomic :=
  if id ∈ pending ∨ ¬ arena.Has id then [] else g.consumersOf (arena.node id).output

/-- A node that gets its consumers is no longer pending. -/
theorem expanded_cons (g : Graph) {arena : Arena} {current : NodeId} {pending : List NodeId}
    (inside : arena.Has current) (absent : current ∉ pending)
    : Function.update (expanded g arena (current :: pending)) current
        (expanded g arena (current :: pending) current
          ++ g.consumersOf (arena.node current).output)
      = expanded g arena pending := by
  funext id
  by_cases same : id = current
  · subst same
    simp [expanded, inside, absent]
  · simp [expanded, same]

/-- Nodes that are added are pending at first. -/
theorem Adds.expanded {arena earlier : Arena} {fresh : List NodeId}
    (adds : arena.Adds earlier fresh) (g : Graph) (pending : List NodeId)
    : expanded g arena (fresh ++ pending) = expanded g earlier pending := by
  funext id
  by_cases before : earlier.Has id
  · have old : id ∉ fresh := fun member => adds.new id member before
    have made : (arena.node id).output = (earlier.node id).output :=
      congrArg Atomic.output (adds.atomic id before)
    simp [Arena.expanded, old, before, adds.has id before, made]
  · simp only [Arena.expanded, adds.places, before]
    by_cases member : id ∈ fresh <;> simp [member]

/-- No arena of the graph's atomics has more nodes than there are atomics. -/
theorem Partial.size_le {g : Graph} {arena : Arena} {seen : NodeId → List Atomic}
    (part : Partial g arena seen)
    : arena.size ≤ g.atomics.length := by
  have unique : (arena.nodes.map PhysicalNode.atomic).Nodup := by
    have distinct := part.sound.distinct
    refine List.Nodup.of_map Atomic.output ?_
    rwa [List.map_map]
  have within : arena.nodes.map PhysicalNode.atomic ⊆ g.atomics := by
    intro a member
    obtain ⟨node, inArena, rfl⟩ := List.mem_map.mp member
    obtain ⟨id, inside, rfl⟩ := mem_nodes_iff.mp inArena
    exact part.known id inside
  simpa [size] using unique.length_le_of_subset within

/-- The atomics that read something are no scans. -/
theorem noScan_of_consumer {g : Graph} (valid : g.Valid) {output : String} {a : Atomic}
    (consumer : a ∈ g.consumersOf output)
    : a.kind ≠ .scan := by
  obtain ⟨member, reads⟩ := Graph.mem_consumersOf.mp consumer
  intro scan
  have fit := valid.fit a member
  simp only [Atomic.hasFitInputs, scan, List.isEmpty_iff] at fit
  simp [fit] at reads

/-- The walk gives every node its consumers.
Witness: induction on the fuel. Each step takes one pending node off and puts as many on as the
arena gains, and no arena has more nodes than the graph has atomics.
-/
theorem Partial.grow {g : Graph} (valid : g.Valid) (fuel : Nat) {arena : Arena}
    {pending : List NodeId} (part : Partial g arena (expanded g arena pending))
    (unique : pending.Nodup) (inside : ∀ id ∈ pending, arena.Has id)
    (enough : g.atomics.length + pending.length ≤ fuel + arena.size)
    : Partial g (Arena.grow g fuel arena pending) (expanded g (Arena.grow g fuel arena pending) [])
      ∧ (Arena.grow g fuel arena pending).Grown arena := by
  induction fuel generalizing arena pending with
  | zero =>
      have below := part.size_le
      have none : pending = [] := List.eq_nil_of_length_eq_zero (by omega)
      subst none
      exact ⟨part, .refl arena⟩
  | succ fuel ih =>
      cases pending with
      | nil => exact ⟨part, .refl arena⟩
      | cons current pending =>
          obtain ⟨absent, unique⟩ := List.nodup_cons.mp unique
          have here := inside current (by simp)
          obtain ⟨next, fresh, folded, part, grown, adds⟩ :=
            part.attachAll valid (g.consumersOf (arena.node current).output) here
              (fun a member => (Graph.mem_consumersOf.mp member).1)
              (fun a member => noScan_of_consumer valid member) pending
          rw [expanded_cons g here absent, ← adds.expanded] at part
          have step : Arena.grow g (fuel + 1) arena (current :: pending)
              = Arena.grow g fuel next (fresh ++ pending) := by
            rw [Arena.grow, folded]
          rw [step]
          have rest := ih part ?_ ?_ ?_
          · exact ⟨rest.1, rest.2.trans grown⟩
          · refine List.nodup_append.mpr ⟨adds.unique, unique, ?_⟩
            rintro id member other waiting rfl
            exact adds.new id member (inside id (by simp [waiting]))
          · intro id member
            rcases List.mem_append.mp member with added | waiting
            · exact (adds.places id).mpr (.inr added)
            · exact grown.has id (inside id (by simp [waiting]))
          · have size := adds.size
            simp only [List.length_append, List.length_cons] at enough ⊢
            omega

end DataflowPlan.Arena
