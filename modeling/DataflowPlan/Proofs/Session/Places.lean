import DataflowPlan.Proofs.Analysis.Placements
import DataflowPlan.Proofs.Session.SetKeys

/-! The places of outputs. Where a pipeline stops, the place of its output is told by the atomic, by
the readers of that atomic, and by what its computation says: which of the readers have come already
makes no difference.
-/

namespace DataflowPlan

theorem Computation.kind_of_set? {c : Computation} {set : SetId} (names : c.set? = some set)
    : set.kind = .user := by
  unfold set? at names
  split at names
  · obtain rfl := Option.some.inj names
    rfl
  · simp at names

namespace Graph

/-- What the atomic makes is materialized for its readers: for several of them, or for any of a
partition.
-/
def isMaterialized (g : Graph) (a : Atomic) : Bool :=
  g.isShared a || (a.kind == .partition && !g.isUnread a)

/-- The set that takes what the atomic makes where a pipeline ends, by what the computation says:
the set that it names if nothing reads the output; if that is materialized, the set that it is kept
in, or one of the job's; for one reader of an aggregate a hash table, unless the output is kept.
-/
def sink? (g : Graph) (jobId : String) (pageSize : Nat) (a : Atomic) (c : Computation)
    : Option SetId :=
  if g.isUnread a then c.set?
  else if g.isMaterialized a then
    if c.materializeOutput then
      if a.kind = .partition then c.set?.map (·.withPageSize pageSize) else c.set?
    else some (.intermediate jobId a.output pageSize)
  else if a.kind = .aggregate ∧ c.materializeOutput = false then
    some (.aggregationResult jobId (a.output ++ "_aggregationResult"))
  else c.set?

variable {g : Graph} {jobId : String} {pageSize : Nat} {a : Atomic} {c : Computation}

theorem sink?_of_unread (unread : (g.consumersOf a.output).length = 0)
    : g.sink? jobId pageSize a c = c.set? := by
  simp [sink?, isUnread, List.length_eq_zero_iff.mp unread]

theorem sink?_of_one (step : a.kind ≠ .partition) (one : (g.consumersOf a.output).length = 1)
    : g.sink? jobId pageSize a c
        = if a.kind = .aggregate ∧ c.materializeOutput = false then
            some (.aggregationResult jobId (a.output ++ "_aggregationResult"))
          else c.set? := by
  obtain ⟨reader, readers⟩ := List.length_eq_one_iff.mp one
  simp [sink?, isMaterialized, isUnread, isShared, readers, step]

theorem sink?_of_shared (step : a.kind ≠ .partition)
    (shared : 2 ≤ (g.consumersOf a.output).length)
    : g.sink? jobId pageSize a c
        = if c.materializeOutput then c.set?
          else some (.intermediate jobId a.output pageSize) := by
  have read : g.consumersOf a.output ≠ [] := by
    intro none
    simp [none] at shared
  simp [sink?, isMaterialized, isUnread, isShared, shared, step, read]

theorem sink?_of_partition (partition : a.kind = .partition)
    (read : (g.consumersOf a.output).length ≠ 0)
    : g.sink? jobId pageSize a c
        = if c.materializeOutput then c.set?.map (·.withPageSize pageSize)
          else some (.intermediate jobId a.output pageSize) := by
  have read : g.consumersOf a.output ≠ [] := by
    intro none
    simp [none] at read
  simp [sink?, isMaterialized, isUnread, partition, read]

theorem sink?_congr (g : Graph) (jobId : String) (pageSize : Nat) (a : Atomic)
    {c d : Computation} (like : c.Like d)
    : g.sink? jobId pageSize a c = g.sink? jobId pageSize a d := by
  unfold sink?
  rw [like.sets, like.keeps]

end Graph

-----------------------------------------------------------------------------------------------
-- Places
-----------------------------------------------------------------------------------------------

/-- The place is in the set, which is declared if it is one of the job's; without a set the
computation is no sink.
-/
inductive Computation.PlacedIn (c : Computation) : Option SetId → Except Error Placement → Prop
  | sink {sink place} (here : place.sink = sink)
    (declares : sink.kind = .intermediate → sink ∈ place.declared)
    : c.PlacedIn (some sink) (.ok place)
  | unsupported : c.PlacedIn none (.error (.unsupportedSink c.name c.kind))

theorem Computation.PlacedIn.congr {c d : Computation} {sink? : Option SetId}
    {result : Except Error Placement} (placed : c.PlacedIn sink? result) (name : c.name = d.name)
    (kind : c.kind = d.kind)
    : d.PlacedIn sink? result := by
  cases placed with
  | sink here declares => exact .sink here declares
  | unsupported =>
      rw [name, kind]
      exact .unsupported

namespace View

variable {v : View} {id : NodeId} {c : Computation}

theorem outputPlacement_placedIn (c : Computation)
    : c.PlacedIn c.set? (outputPlacement c) := by
  unfold outputPlacement Computation.sinkSet
  cases names : c.set? with
  | none => exact .unsupported
  | some set =>
      refine .sink rfl fun kind => ?_
      simp [Computation.kind_of_set? names] at kind

/-- An output that is kept is placed in the set that the computation names. -/
theorem placement_of_kept (id : NodeId) (keeps : c.materializeOutput = true)
    : v.placement id c = outputPlacement c := by
  simp [placement, outputPlacement, keeps]

/-- Any other one is redirected to a set of the job's, which is new. -/
theorem placement_of_unkept (named : v.topology.graph.Named) (found : v.computation id = .ok c)
    (unkept : c.materializeOutput = false)
    : v.placement id c
        = .ok ⟨v.jobSet id "" v.config.pageSize, [v.jobSet id "" v.config.pageSize],
            [.redirect c.name v.jobId (v.outputOf id)]⟩ := by
  have there := Graph.computation_eq_ok.mp found
  have own : v.topology.graph.computation c.name = .ok c := by
    rw [Graph.computation_eq_ok, named _ _ there]
    exact there
  simp [placement, unkept, own]

theorem placement_placedIn (named : v.topology.graph.Named) (found : v.computation id = .ok c)
    : c.PlacedIn
        (if c.materializeOutput then c.set?
          else some (.intermediate v.jobId (v.outputOf id) v.config.pageSize))
        (v.placement id c) := by
  cases keeps : c.materializeOutput with
  | true =>
      rw [placement_of_kept id keeps, if_pos rfl]
      exact outputPlacement_placedIn c
  | false =>
      rw [placement_of_unkept named found keeps, if_neg (by simp)]
      exact .sink (by simp [jobSet]) fun _ => by simp [jobSet]

theorem partitionPlacement_placedIn (named : v.topology.graph.Named)
    (found : v.computation id = .ok c) (read : (v.node id).hasConsumers = true)
    : c.PlacedIn
        (if c.materializeOutput then c.set?.map (·.withPageSize v.config.pageSize)
          else some (.intermediate v.jobId (v.outputOf id) v.config.pageSize))
        (v.partitionPlacement id c) := by
  unfold partitionPlacement
  rw [if_pos read]
  cases keeps : c.materializeOutput with
  | true =>
      rw [placement_of_kept id keeps, if_pos rfl]
      unfold outputPlacement Computation.sinkSet
      cases names : c.set? with
      | none => exact .unsupported
      | some set =>
          refine .sink rfl fun kind => ?_
          rw [show (set.withPageSize v.config.pageSize).kind = set.kind from rfl,
            Computation.kind_of_set? names] at kind
          simp at kind
  | false =>
      rw [placement_of_unkept named found keeps, if_neg (by simp)]
      refine .sink ?_ fun _ => by simp [jobSet]
      simp [jobSet, SetId.intermediate, SetId.withPageSize]

/-- The consumers that wait at the node are all that read it, or one has come already to a step that
keeps its output if several read it.
-/
inductive Awaited (g : Graph) (v : View) (id : NodeId) (c : Computation) : Prop
  | all (same : (v.node id).active.length = (g.consumersOf (v.node id).atomic.output).length)
  | visited (step : (v.node id).atomic.kind = .other)
    (fewer : (v.node id).active.length < (g.consumersOf (v.node id).atomic.output).length)
    (keeps
      : 2 ≤ (g.consumersOf (v.node id).atomic.output).length → c.materializeOutput = true)

section Stopped

variable {g : Graph} (named : v.topology.graph.Named) (found : v.computation id = .ok c)
  (awaited : v.Awaited g id c)

include named found awaited

theorem Awaited.step_placedIn (noPartition : (v.node id).atomic.kind ≠ .partition)
    (noAggregate : (v.node id).atomic.kind ≠ .aggregate)
    (stops : (v.node id).active.length ≠ 1)
    : c.PlacedIn (g.sink? v.jobId v.config.pageSize (v.node id).atomic c)
        (if (v.node id).hasConsumers then v.placement id c else outputPlacement c) := by
  match active : (v.node id).active with
  | [only] => simp [active] at stops
  | one :: other :: rest =>
      have shared : 2 ≤ (g.consumersOf (v.node id).atomic.output).length := by
        cases awaited with
        | all same => simp [← same, active]
        | visited step fewer keeps => simp [active] at fewer; omega
      rw [if_pos (by simp [PhysicalNode.hasConsumers, active]),
        Graph.sink?_of_shared noPartition shared]
      exact placement_placedIn named found
  | [] =>
      have own : g.sink? v.jobId v.config.pageSize (v.node id).atomic c = c.set? := by
        cases awaited with
        | all same => exact Graph.sink?_of_unread (by simp [← same, active])
        | visited step fewer keeps =>
            rw [active, List.length_nil] at fewer
            by_cases one : (g.consumersOf (v.node id).atomic.output).length = 1
            · rw [Graph.sink?_of_one noPartition one, if_neg fun aggregate =>
                noAggregate aggregate.1]
            · have shared : 2 ≤ (g.consumersOf (v.node id).atomic.output).length := by omega
              rw [Graph.sink?_of_shared noPartition shared, if_pos (keeps shared)]
      rw [if_neg (by simp [PhysicalNode.hasConsumers, active]), own]
      exact outputPlacement_placedIn c

theorem Awaited.aggregate_placedIn (aggregate : (v.node id).atomic.kind = .aggregate)
    : c.PlacedIn (g.sink? v.jobId v.config.pageSize (v.node id).atomic c)
        (Prod.fst <$> v.aggregatePlacement id c) := by
  have noPartition : (v.node id).atomic.kind ≠ .partition := by simp [aggregate]
  have same : (v.node id).active.length = (g.consumersOf (v.node id).atomic.output).length := by
    cases awaited with
    | all same => exact same
    | visited step fewer keeps => simp [aggregate] at step
  match active : (v.node id).active with
  | [] =>
      rw [Graph.sink?_of_unread (by simp [← same, active])]
      have own : Prod.fst <$> v.aggregatePlacement id c = outputPlacement c := by
        simp only [aggregatePlacement, outputPlacement, active]
        cases c.sinkSet <;> rfl
      rw [own]
      exact outputPlacement_placedIn c
  | [only] =>
      rw [Graph.sink?_of_one noPartition (by simp [← same, active])]
      cases keeps : c.materializeOutput with
      | true =>
          have own : Prod.fst <$> v.aggregatePlacement id c = outputPlacement c := by
            simp only [aggregatePlacement, outputPlacement, active, keeps]
            cases c.sinkSet <;> rfl
          rw [own, if_neg (by simp)]
          exact outputPlacement_placedIn c
      | false =>
          rw [if_pos ⟨aggregate, rfl⟩]
          simp only [aggregatePlacement, active, keeps]
          exact .sink rfl fun kind => by simp [SetId.aggregationResult] at kind
  | one :: other :: rest =>
      rw [Graph.sink?_of_shared noPartition (by simp [← same, active])]
      have own : Prod.fst <$> v.aggregatePlacement id c = v.placement id c := by
        simp only [aggregatePlacement, active]
        cases v.placement id c <;> rfl
      rw [own]
      exact placement_placedIn named found

theorem Awaited.partition_placedIn (partition : (v.node id).atomic.kind = .partition)
    : c.PlacedIn (g.sink? v.jobId v.config.pageSize (v.node id).atomic c)
        (v.partitionPlacement id c) := by
  have same : (v.node id).active.length = (g.consumersOf (v.node id).atomic.output).length := by
    cases awaited with
    | all same => exact same
    | visited step fewer keeps => simp [partition] at step
  cases active : (v.node id).active with
  | nil =>
      rw [Graph.sink?_of_unread (by simp [← same, active])]
      have own : v.partitionPlacement id c = outputPlacement c := by
        simp [partitionPlacement, outputPlacement, PhysicalNode.hasConsumers, active]
      rw [own]
      exact outputPlacement_placedIn c
  | cons one rest =>
      rw [Graph.sink?_of_partition partition (by simp [← same, active])]
      exact partitionPlacement_placedIn named found (by simp [PhysicalNode.hasConsumers, active])

/-- The place of the output at a node is told by the atomic there and by what its computation says.
Witness: the kinds of nodes, and for each the consumers that are left.
-/
theorem Awaited.placedIn (wired : Arena.Wired g v.topology.arena)
    (inside : v.topology.arena.Has id) (stops : v.stops id = true)
    : c.PlacedIn (g.sink? v.jobId v.config.pageSize (v.node id).atomic c) (v.placeAt id c) := by
  unfold View.stops at stops
  unfold placeAt
  cases kind : (v.node id).kind with
  | pipeline =>
      simp only [kind, bne_iff_ne, ne_eq] at stops
      have atomic : (v.node id).atomic.kind = .scan ∨ (v.node id).atomic.kind = .other :=
        (wired.pipeline_iff inside).mp kind
      exact awaited.step_placedIn named found (by rcases atomic with h | h <;> simp [h])
        (by rcases atomic with h | h <;> simp [h]) stops
  | join state =>
      simp only [kind, Bool.and_eq_true, decide_eq_true_eq] at stops
      have atomic : (v.node id).atomic.kind = .joinSets := (wired.join_iff inside).mp ⟨_, kind⟩
      exact awaited.step_placedIn named found (by simp [atomic]) (by simp [atomic]) (by omega)
  | aggregation =>
      exact awaited.aggregate_placedIn named found ((wired.aggregation_iff inside).mp kind)
  | partition =>
      exact awaited.partition_placedIn named found ((wired.partition_iff inside).mp kind)

end Stopped

end View

namespace Session

variable {g : Graph} {first s : Session} {followed : List Arena.Edge} {stats : Statistics}
  {source last : NodeId} {init : List NodeId} {key : String} {reached : StageId}
  {segment : Segment}

/-- Breakers read one tuple set. -/
theorem single_of_fit {a : Atomic} (fit : a.hasFitInputs = true) (noStep : a.kind ≠ .other)
    (noJoin : a.kind ≠ .joinSets)
    : ∀ i ∈ a.inputs, ∀ j ∈ a.inputs, i = j := by
  have few : a.inputs.length ≤ 1 := by
    unfold Atomic.hasFitInputs at fit
    cases kind : a.kind with
    | scan => simp_all
    | other => exact absurd kind noStep
    | joinSets => exact absurd kind noJoin
    | aggregate | partition =>
        simp only [kind, beq_iff_eq] at fit
        exact fit.le
  intro i here j there
  match inputs : a.inputs, few with
  | [], _ => simp [inputs] at here
  | [only], _ => simp_all

-----------------------------------------------------------------------------------------------
-- Steps that several read
-----------------------------------------------------------------------------------------------

/-- A step that several consumers read, and that some of these have left, keeps its output. -/
def StepsKept (s : Session) : Prop :=
  ∀ p,
    (s.node p).atomic.kind = .other →
      2 ≤ (s.node p).consumers.length →
        (s.node p).active.length < (s.node p).consumers.length →
          ∃ c,
            s.topology.graph.computation (s.node p).atomic.computation = .ok c
            ∧ c.materializeOutput = true

theorem Beginning.stepsKept (beginning : s.Beginning g) : s.StepsKept := by
  intro p _ _ fewer
  have all : (s.node p).active = (s.node p).consumers := beginning.mirrors.active p
  rw [all] at fewer
  exact absurd fewer (Nat.lt_irrefl _)

theorem StepsKept.penalize (kept : s.StepsKept) (key : String) (source : NodeId)
    : (s.penalize key source).StepsKept := by
  have frame := Arena.frame_rotate s.topology.arena source
  intro p
  have atomic : ((s.penalize key source).node p).atomic = (s.node p).atomic := frame.atomic p
  have consumers : ((s.penalize key source).node p).consumers = (s.node p).consumers :=
    frame.consumers p
  rw [length_active_penalize, atomic, consumers]
  exact kept p

/-- Consumers leave a step of several readers only once it is a source, whose output is kept. -/
theorem StepsKept.commit (kept : s.StepsKept) (reaches : ReachesNamed g first s followed)
    (keyed : s.Keyed) (course : (s.view stats).Course source init last segment)
    : (s.commit key source reached segment).StepsKept := by
  intro p other shared fewer
  rw [atomic_commit course] at other ⊢
  have consumers : ((s.commit key source reached segment).node p).consumers
      = (s.node p).consumers := by
    rw [node_commit]
    exact course.frame.consumers p
  rw [consumers] at shared fewer
  rw [active_commit course, List.length_drop] at fewer
  have before : ∃ c,
      s.topology.graph.computation (s.node p).atomic.computation = .ok c
      ∧ c.materializeOutput = true := by
    by_cases left : (s.node p).active.length < (s.node p).consumers.length
    · exact kept p other shared left
    · have passed : p ∈ source :: (s.view stats).steps init :=
        List.count_pos_iff.mp (by omega)
      rcases List.mem_cons.mp passed with rfl | step
      · obtain ⟨set, isSource⟩ := course.isSource
        obtain ⟨c, sink, found, keeps, -⟩ := keyed.kept p set other isSource
        exact ⟨c, found, keeps⟩
      · obtain ⟨c, link⟩ := exists_link_from last (List.mem_filter.mp step).1
        have only : (s.node p).active = [c] := (course.runs _ link).active
        simp only [only, List.length_singleton] at left
        omega
  obtain ⟨c, found, keeps⟩ := before
  obtain ⟨d, there, derived⟩ := (course.kept reaches.named).exists_derived found
  rw [topology_commit]
  exact ⟨d, there, (derived.kept keeps).1⟩

/-- In every session that a run leads to, the registry goes by the sets of its sources, and steps
that some readers have left keep their output.
-/
theorem steady_stepsKept (g : Graph) (first : Session)
    : Steady fun _ s => ∃ followed, ReachesNamed g first s followed ∧ s.Keyed ∧ s.StepsKept :=
  steady_of_named (P := fun _ _ s => s.Keyed ∧ s.StepsKept)
    (fun reaches holds _ course _ _ =>
      ⟨holds.1.commit reaches course, holds.2.commit reaches holds.1 course⟩)
    (fun holds key source => ⟨holds.1.penalize key source, holds.2.penalize key source⟩)
    (fun holds => ⟨holds.1.prune, holds.2⟩)

/-- Where a pipeline stops, all readers are still to come, or the output is kept for them. -/
theorem StepsKept.awaited (kept : s.StepsKept) (reaches : ReachesNamed g first s followed)
    (stopsAt : (s.view stats).StopsAt source s.nextStage last) {c : Computation}
    (found : (s.view stats).computation last = .ok c)
    : (s.view stats).Awaited g last c := by
  obtain ⟨⟨next, draft, prev, comes⟩, -⟩ := stopsAt
  have wired : Arena.Wired g (s.view stats).topology.arena := reaches.wired
  have ledger : (s.view stats).topology.arena.Ledger followed := reaches.ledger
  obtain ⟨edge, fresh⟩ := comes.fresh wired ledger
  have inside := wired.has_consumer edge
  have readers : (s.node last).consumers.length
      = (g.consumersOf (s.node last).atomic.output).length := by
    have attached := congrArg List.length (wired.attached last inside).consumers
    rwa [List.length_map] at attached
  have most : (s.node last).active.length
      ≤ (g.consumersOf (s.node last).atomic.output).length :=
    ledger.length_active_le wired inside
  by_cases all : (s.node last).active.length = (s.node last).consumers.length
  · exact .all (all.trans readers)
  · rw [← readers] at most
    have step : (s.node last).atomic.kind = .other := by
      -- all readers of any other node wait until the last edge to it is followed
      by_contra breaker
      refine all (ledger.active_perm wired (ledger.not_reached wired edge fresh ?_)).length_eq
      exact single_of_fit (wired.valid.fit _ (wired.known last inside)) breaker
    have fewer : (s.node last).active.length < (s.node last).consumers.length := by omega
    refine .visited step (readers ▸ fewer) fun shared => ?_
    obtain ⟨d, there, keeps⟩ := kept last step (readers.symm ▸ shared) fewer
    obtain rfl := Except.ok.inj (found.symm.trans there)
    exact keeps

end Session

end DataflowPlan
