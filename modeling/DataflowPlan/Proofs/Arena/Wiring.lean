import DataflowPlan.Proofs.Arena.Growth

/-! What planning never changes of an arena: which atomics its nodes stand for, and which nodes
consume from which.
-/

namespace DataflowPlan

/-- The kind of a node before anything is planned. -/
def NodeKind.reset : NodeKind → NodeKind
  | .join _ => .join .notStarted
  | kind => kind

theorem NodeKind.reset_ofAtomic (kind : AtomicKind)
    : (NodeKind.ofAtomic kind).reset = .ofAtomic kind := by
  cases kind <;> rfl

namespace Arena

/-- Places, atomics and consumers are as they were, and a join is still a join. -/
structure Frame (after before : Arena) : Prop where
  size : after.size = before.size
  id : ∀ p, (after.node p).id = (before.node p).id
  atomic : ∀ p, (after.node p).atomic = (before.node p).atomic
  consumers : ∀ p, (after.node p).consumers = (before.node p).consumers
  kind : ∀ p, (after.node p).kind.reset = (before.node p).kind.reset

theorem Frame.refl (arena : Arena) : arena.Frame arena :=
  ⟨rfl, fun _ => rfl, fun _ => rfl, fun _ => rfl, fun _ => rfl⟩

theorem Frame.trans {last middle first : Arena} (later : last.Frame middle)
    (before : middle.Frame first)
    : last.Frame first :=
  ⟨later.size.trans before.size, fun p => (later.id p).trans (before.id p),
    fun p => (later.atomic p).trans (before.atomic p),
    fun p => (later.consumers p).trans (before.consumers p),
    fun p => (later.kind p).trans (before.kind p)⟩

theorem Frame.has_iff {after before : Arena} (frame : after.Frame before) {p : NodeId}
    : after.Has p ↔ before.Has p := by
  simp [Has, frame.size]

theorem Frame.output {after before : Arena} (frame : after.Frame before) (p : NodeId)
    : (after.node p).output = (before.node p).output :=
  congrArg Atomic.output (frame.atomic p)

/-- A change frames an arena if it frames the node that it is made to. -/
theorem frame_modify (arena : Arena) (id : NodeId) {change : PhysicalNode → PhysicalNode}
    (keepsId : (change (arena.node id)).id = (arena.node id).id)
    (keepsAtomic : (change (arena.node id)).atomic = (arena.node id).atomic)
    (keepsConsumers : (change (arena.node id)).consumers = (arena.node id).consumers)
    (keepsKind : (change (arena.node id)).kind.reset = (arena.node id).kind.reset)
    : (arena.modify id change).Frame arena := by
  have either : ∀ p, (arena.modify id change).node p = arena.node p
      ∨ p = id ∧ (arena.modify id change).node p = change (arena.node id) := by
    intro p
    rw [node_modify]
    split
    · next here => exact .inr ⟨here.1, rfl⟩
    · exact .inl rfl
  refine ⟨by simp, ?_, ?_, ?_, ?_⟩
  · intro p
    rcases either p with same | ⟨rfl, changed⟩
    · rw [same]
    · rw [changed, keepsId]
  · intro p
    rcases either p with same | ⟨rfl, changed⟩
    · rw [same]
    · rw [changed, keepsAtomic]
  · intro p
    rcases either p with same | ⟨rfl, changed⟩
    · rw [same]
    · rw [changed, keepsConsumers]
  · intro p
    rcases either p with same | ⟨rfl, changed⟩
    · rw [same]
    · rw [changed, keepsKind]

theorem frame_consumeFront (arena : Arena) (id : NodeId) : (arena.consumeFront id).Frame arena :=
  frame_modify arena id rfl rfl rfl rfl

theorem frame_setSource (arena : Arena) (id : NodeId) (set : SetId)
    : (arena.setSource id set).Frame arena :=
  frame_modify arena id rfl rfl rfl rfl

theorem frame_rotate (arena : Arena) (id : NodeId) : (arena.rotate id).Frame arena := by
  refine frame_modify arena id ?_ ?_ ?_ ?_ <;>
    · unfold PhysicalNode.rotate
      cases (arena.node id).active <;> rfl

theorem frame_setJoin (arena : Arena) (id : NodeId) (state : JoinState)
    (join : (arena.node id).kind.reset = .join .notStarted)
    : (arena.setJoin id state).Frame arena :=
  frame_modify arena id rfl rfl rfl join.symm

/-- The arena has a node for each atomic of a valid graph, and the edges of the graph. -/
structure Wired (g : Graph) (arena : Arena) : Prop where
  valid : g.Valid
  sound : arena.Sound
  known : ∀ id, arena.Has id → (arena.node id).atomic ∈ g.atomics
  covers : ∀ a ∈ g.atomics, ∃ id, arena.Has id ∧ (arena.node id).atomic = a
  kinds
    : ∀ id, arena.Has id → (arena.node id).kind.reset = .ofAtomic (arena.node id).atomic.kind
  attached : ∀ id, arena.Has id → arena.Attached id (g.consumersOf (arena.node id).output)

/-- A sound arena stays sound in a frame.
Witness: the list of outputs is the same place by place.
-/
theorem Sound.of_frame {after before : Arena} (sound : before.Sound) (frame : after.Frame before)
    : after.Sound := by
  refine ⟨?_, ?_⟩
  · intro id inside
    rw [frame.id, sound.placed id (frame.has_iff.mp inside)]
  · have same : after.nodes.map PhysicalNode.output = before.nodes.map PhysicalNode.output := by
      apply List.ext_getElem
      · simpa [size] using frame.size
      · intro index below belowBefore
        have output := frame.output ⟨index⟩
        simp only [List.length_map] at below belowBefore
        simpa [Arena.node, below, belowBefore] using output
    rw [same]
    exact sound.distinct

theorem Wired.of_frame {g : Graph} {after before : Arena} (wired : Wired g before)
    (frame : after.Frame before)
    : Wired g after := by
  refine ⟨wired.valid, wired.sound.of_frame frame, ?_, ?_, ?_, ?_⟩
  · intro id inside
    rw [frame.atomic]
    exact wired.known id (frame.has_iff.mp inside)
  · intro a member
    obtain ⟨id, inside, made⟩ := wired.covers a member
    exact ⟨id, frame.has_iff.mpr inside, (frame.atomic id).trans made⟩
  · intro id inside
    rw [frame.kind, frame.atomic]
    exact wired.kinds id (frame.has_iff.mp inside)
  · intro id inside
    have attached := wired.attached id (frame.has_iff.mp inside)
    rw [frame.output]
    refine attached.of_holds ⟨fun p there => frame.has_iff.mpr there, fun p _ => frame.atomic p⟩ ?_
    exact frame.consumers id

variable {g : Graph} {arena : Arena}

theorem not_has_consumers {p : NodeId} (outside : ¬ arena.Has p)
    : (arena.node p).consumers = [] := by
  rw [node_of_not_has outside]
  rfl

/-- A node with a consumer is in the arena. -/
theorem has_of_edge {p c : NodeId} (edge : c ∈ (arena.node p).consumers)
    : arena.Has p := by
  by_contra outside
  simp [not_has_consumers outside] at edge

theorem Wired.has_consumer (wired : Wired g arena) {p c : NodeId}
    (edge : c ∈ (arena.node p).consumers)
    : arena.Has c :=
  (wired.attached p (has_of_edge edge)).inside c edge

/-- The consumers of a node are those whose atomics read its tuple set. -/
theorem Wired.edge_iff (wired : Wired g arena) {p c : NodeId} (inside : arena.Has p)
    (consumerInside : arena.Has c)
    : c ∈ (arena.node p).consumers ↔ (arena.node p).output ∈ (arena.node c).atomic.inputs := by
  have attached := wired.attached p inside
  constructor
  · intro edge
    have listed : (arena.node c).atomic ∈ g.consumersOf (arena.node p).output :=
      attached.consumers ▸ List.mem_map_of_mem edge
    exact (Graph.mem_consumersOf.mp listed).2
  · intro reads
    have listed : (arena.node c).atomic ∈ g.consumersOf (arena.node p).output :=
      Graph.mem_consumersOf.mpr ⟨wired.known c consumerInside, reads⟩
    rw [← attached.consumers] at listed
    obtain ⟨other, edge, same⟩ := List.mem_map.mp listed
    have equal := wired.sound.id_eq (attached.inside other edge) consumerInside
      (congrArg Atomic.output same)
    exact equal ▸ edge

theorem Wired.consumers_nodup (wired : Wired g arena) (p : NodeId)
    : (arena.node p).consumers.Nodup := by
  by_cases inside : arena.Has p
  · have distinct : g.atomics.Nodup := List.Nodup.of_map _ wired.valid.distinct
    have unique : (g.consumersOf (arena.node p).output).Nodup := distinct.filter _
    exact List.Nodup.of_map _ ((wired.attached p inside).consumers ▸ unique)
  · simp [not_has_consumers inside]

/-- Every tuple set that a node reads is made by a node. -/
theorem Wired.exists_producer (wired : Wired g arena) {c : NodeId} (inside : arena.Has c)
    {input : String} (read : input ∈ (arena.node c).atomic.inputs)
    : ∃ p, c ∈ (arena.node p).consumers ∧ (arena.node p).output = input := by
  obtain ⟨b, member, rfl⟩ := wired.valid.exists_producer (wired.known c inside) read
  obtain ⟨p, there, rfl⟩ := wired.covers b member
  exact ⟨p, (wired.edge_iff there inside).mpr read, rfl⟩

/-- The tuple set that a node makes is what its consumers read. -/
theorem Wired.read_of_edge (wired : Wired g arena) {p c : NodeId}
    (edge : c ∈ (arena.node p).consumers)
    : (arena.node p).output ∈ (arena.node c).atomic.inputs :=
  (wired.edge_iff (has_of_edge edge) (wired.has_consumer edge)).mp edge

/-- Nodes rank below their consumers, and all below the number of atomics. -/
theorem Wired.exists_rank (wired : Wired g arena)
    : ∃ rank : NodeId → Nat,
        (∀ p, arena.Has p → rank p < g.atomics.length)
        ∧ ∀ p, ∀ c ∈ (arena.node p).consumers, rank p < rank c := by
  obtain ⟨rank, below, lower⟩ := Graph.exists_rank wired.valid.distinct wired.valid.ordered
  refine ⟨fun p => rank (arena.node p).output, ?_, ?_⟩
  · exact fun p inside => below _ (wired.known p inside)
  · exact fun p c edge =>
      lower _ (wired.known c (wired.has_consumer edge)) _ (wired.read_of_edge edge)

/-- The nodes of the arena stand for the atomics of the graph, in some order. -/
theorem Wired.atomics_perm (wired : Wired g arena)
    : (arena.nodes.map PhysicalNode.atomic).Perm g.atomics := by
  refine (List.perm_ext_iff_of_nodup ?_ (List.Nodup.of_map _ wired.valid.distinct)).mpr ?_
  · refine List.Nodup.of_map Atomic.output ?_
    have distinct := wired.sound.distinct
    rwa [List.map_map]
  · intro a
    constructor
    · intro member
      obtain ⟨node, inArena, rfl⟩ := List.mem_map.mp member
      obtain ⟨id, inside, rfl⟩ := mem_nodes_iff.mp inArena
      exact wired.known id inside
    · intro member
      obtain ⟨id, inside, rfl⟩ := wired.covers a member
      exact List.mem_map_of_mem (mem_nodes_iff.mpr ⟨id, inside, rfl⟩)

/-- The arena has as many nodes as the graph has atomics. -/
theorem Wired.size_eq (wired : Wired g arena) : arena.size = g.atomics.length := by
  simpa [size] using wired.atomics_perm.length_eq

/-- A scan consumes from no node. -/
theorem Wired.scan_reads_nothing (wired : Wired g arena) {c : NodeId}
    (scan : (arena.node c).atomic.kind = .scan) (p : NodeId)
    : c ∉ (arena.node p).consumers := by
  intro edge
  have fit := wired.valid.fit _ (wired.known c (wired.has_consumer edge))
  simp only [Atomic.hasFitInputs, scan, List.isEmpty_iff] at fit
  have read := wired.read_of_edge edge
  simp [fit] at read

/-- Any other node consumes from some node. -/
theorem Wired.exists_edge_to (wired : Wired g arena) {c : NodeId} (inside : arena.Has c)
    (noScan : (arena.node c).atomic.kind ≠ .scan)
    : ∃ p, c ∈ (arena.node p).consumers := by
  have fit := wired.valid.fit _ (wired.known c inside)
  have reading : (arena.node c).atomic.inputs ≠ [] := by
    intro none
    cases kind : (arena.node c).atomic.kind <;> simp [Atomic.hasFitInputs, kind, none] at fit noScan
  obtain ⟨input, read⟩ := List.exists_mem_of_ne_nil _ reading
  obtain ⟨p, edge, -⟩ := wired.exists_producer inside read
  exact ⟨p, edge⟩

/-- A node that reads one tuple set consumes from one node. -/
theorem Wired.producer_unique (wired : Wired g arena) {c p q : NodeId}
    (single : ∀ i ∈ (arena.node c).atomic.inputs, ∀ j ∈ (arena.node c).atomic.inputs, i = j)
    (edge : c ∈ (arena.node p).consumers) (other : c ∈ (arena.node q).consumers)
    : p = q :=
  wired.sound.id_eq (has_of_edge edge) (has_of_edge other)
    (single _ (wired.read_of_edge edge) _ (wired.read_of_edge other))

/-- Aggregates and partitions read one tuple set. -/
theorem Wired.breaker_single (wired : Wired g arena) {c : NodeId} (inside : arena.Has c)
    (kind : (arena.node c).atomic.kind = .aggregate ∨ (arena.node c).atomic.kind = .partition)
    : ∀ i ∈ (arena.node c).atomic.inputs, ∀ j ∈ (arena.node c).atomic.inputs, i = j := by
  have fit := wired.valid.fit _ (wired.known c inside)
  have one : (arena.node c).atomic.inputs.length = 1 := by
    rcases kind with kind | kind <;> simpa [Atomic.hasFitInputs, kind] using fit
  obtain ⟨input, only⟩ := List.length_eq_one_iff.mp one
  simp [only]

/-- A join consumes from exactly two nodes. -/
theorem Wired.join_producers (wired : Wired g arena) {c : NodeId} (inside : arena.Has c)
    (join : (arena.node c).atomic.kind = .joinSets)
    : ∃ left right,
        left ≠ right ∧ ∀ p, c ∈ (arena.node p).consumers ↔ p = left ∨ p = right := by
  have member := wired.known c inside
  have fit := wired.valid.fit _ member
  obtain ⟨first, second, sides⟩ :
      ∃ first second, (arena.node c).atomic.inputs = [first, second] := by
    simp only [Atomic.hasFitInputs, join, beq_iff_eq] at fit
    exact List.length_eq_two.mp fit
  have differ : first ≠ second := by
    have distinct := wired.valid.sides _ member join
    simpa [sides] using distinct
  have readsFirst : first ∈ (arena.node c).atomic.inputs := by simp [sides]
  have readsSecond : second ∈ (arena.node c).atomic.inputs := by simp [sides]
  obtain ⟨left, toLeft, madeLeft⟩ := wired.exists_producer inside readsFirst
  obtain ⟨right, toRight, madeRight⟩ := wired.exists_producer inside readsSecond
  refine ⟨left, right, ?_, ?_⟩
  · rintro rfl
    exact differ (madeLeft.symm.trans madeRight)
  · intro p
    constructor
    · intro edge
      have read := wired.read_of_edge edge
      simp only [sides, List.mem_cons, List.not_mem_nil, or_false] at read
      rcases read with isFirst | isSecond
      · exact .inl (wired.sound.id_eq (has_of_edge edge) (has_of_edge toLeft)
          (isFirst.trans madeLeft.symm))
      · exact .inr (wired.sound.id_eq (has_of_edge edge) (has_of_edge toRight)
          (isSecond.trans madeRight.symm))
    · rintro (rfl | rfl)
      · exact toLeft
      · exact toRight

/-- A node that pipelines run through stands for a scan or an ordinary step. -/
theorem Wired.pipeline_iff (wired : Wired g arena) {p : NodeId} (inside : arena.Has p)
    : (arena.node p).kind = .pipeline
      ↔ (arena.node p).atomic.kind = .scan ∨ (arena.node p).atomic.kind = .other := by
  have kinds := wired.kinds p inside
  cases kind : (arena.node p).kind <;> cases atomic : (arena.node p).atomic.kind <;>
    simp [NodeKind.reset, NodeKind.ofAtomic, kind, atomic] at kinds ⊢

theorem Wired.join_iff (wired : Wired g arena) {p : NodeId} (inside : arena.Has p)
    : (∃ state, (arena.node p).kind = .join state)
      ↔ (arena.node p).atomic.kind = .joinSets := by
  have kinds := wired.kinds p inside
  cases kind : (arena.node p).kind <;> cases atomic : (arena.node p).atomic.kind <;>
    simp [NodeKind.reset, NodeKind.ofAtomic, kind, atomic] at kinds ⊢

theorem Wired.aggregation_iff (wired : Wired g arena) {p : NodeId} (inside : arena.Has p)
    : (arena.node p).kind = .aggregation ↔ (arena.node p).atomic.kind = .aggregate := by
  have kinds := wired.kinds p inside
  cases kind : (arena.node p).kind <;> cases atomic : (arena.node p).atomic.kind <;>
    simp [NodeKind.reset, NodeKind.ofAtomic, kind, atomic] at kinds ⊢

theorem Wired.partition_iff (wired : Wired g arena) {p : NodeId} (inside : arena.Has p)
    : (arena.node p).kind = .partition ↔ (arena.node p).atomic.kind = .partition := by
  have kinds := wired.kinds p inside
  cases kind : (arena.node p).kind <;> cases atomic : (arena.node p).atomic.kind <;>
    simp [NodeKind.reset, NodeKind.ofAtomic, kind, atomic] at kinds ⊢

end Arena

end DataflowPlan
