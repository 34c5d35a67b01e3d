import DataflowPlan.Proofs.Analysis.Accounting

/-! Itineraries: the tuple sets that a planned pipeline builds, from its source to the node where it
ends. They go along the graph, and where a probing side is split by key, the next stage goes on with
the tuple set that the one before it ended with.
-/

namespace DataflowPlan

-----------------------------------------------------------------------------------------------
-- Stages along the graph
-----------------------------------------------------------------------------------------------

/-- The atomic that makes the one tuple set reads the other. -/
def Graph.Feeds (g : Graph) (input output : String) : Prop :=
  ∃ a ∈ g.atomics, a.output = output ∧ input ∈ a.inputs

/-- A join makes the tuple set. -/
def Graph.Joins (g : Graph) (output : String) : Prop :=
  ∃ a ∈ g.atomics, a.output = output ∧ a.kind = .joinSets

def Stage.tupleSet? : Stage → Option TupleSetStage
  | .tupleSet s => some s
  | .aggregation _ | .broadcastBuild _ | .partitionedBuild _ => none

/-- The stage builds tuple sets each of which is read for the next one, goes by the name of what an
atomic computes that reads its target, and probes the hash tables of the joins that it comes across.
-/
structure TupleSetStage.Follows (g : Graph) (stage : TupleSetStage) : Prop where
  path : stage.tupleSets.IsChain g.Feeds
  target
    : ∃ a ∈ g.atomics,
        g.ownName? a.computation = some stage.targetComputation
        ∧ stage.targetTupleSet ∈ a.inputs
  probes
    : ∀ output,
        (Stage.tupleSet stage).probesJoin output = true
          ↔ output ∈ stage.tupleSets.tail ∧ g.Joins output

/-- If computations are filed under their own names, the stage is planned for the very atomic. -/
theorem TupleSetStage.Follows.exists_atomic {g : Graph} {stage : TupleSetStage}
    (follows : stage.Follows g) (named : g.Named)
    : ∃ a ∈ g.atomics,
        a.computation = stage.targetComputation ∧ stage.targetTupleSet ∈ a.inputs := by
  obtain ⟨a, member, own, read⟩ := follows.target
  exact ⟨a, member, (named.of_ownName? own).symm, read⟩

/-- The last tuple set of the stage is what a join makes that it probes, and that several atomics
read.
-/
def TupleSetStage.Gathers (g : Graph) (stage : TupleSetStage) : Prop :=
  ∃ output,
    stage.tupleSets.getLast? = some output
    ∧ (Stage.tupleSet stage).probesJoin output = true
    ∧ 2 ≤ (g.consumersOf output).length

/-- The stage is aimed at the last tuple set that it builds, or if it gathers that for several
readers, at the one just before, which is another one.
-/
structure TupleSetStage.Aims (g : Graph) (stage : TupleSetStage) : Prop where
  last : ¬ stage.Gathers g → stage.tupleSets.getLast? = some stage.targetTupleSet
  before
    : stage.Gathers g →
        stage.tupleSets.dropLast.getLast? = some stage.targetTupleSet
        ∧ stage.tupleSets.getLast? ≠ some stage.targetTupleSet

/-- The one stage goes on with the tuple set that the other one ended with. -/
def TupleSetStage.GoesOn (stage next : TupleSetStage) : Prop :=
  ∃ output, stage.tupleSets.getLast? = some output ∧ next.tupleSets.head? = some output

/-- Stages that follow the graph one behind the other, the first one from the tuple set given. -/
structure Itinerary (g : Graph) (start : String) (stages : List TupleSetStage) : Prop where
  follows : ∀ stage ∈ stages, stage.Follows g
  starts : ∃ stage, stages.head? = some stage ∧ stage.tupleSets.head? = some start
  linked : stages.IsChain TupleSetStage.GoesOn

namespace Itinerary

variable {g : Graph} {start via : String} {stage : TupleSetStage} {stages : List TupleSetStage}

theorem single (follows : stage.Follows g) (head : stage.tupleSets.head? = some start)
    : Itinerary g start [stage] :=
  ⟨by simpa using follows, ⟨stage, rfl, head⟩, .singleton stage⟩

theorem cons (follows : stage.Follows g) (head : stage.tupleSets.head? = some start)
    (last : stage.tupleSets.getLast? = some via) (rest : Itinerary g via stages)
    : Itinerary g start (stage :: stages) := by
  refine ⟨?_, ⟨stage, rfl, head⟩, List.isChain_cons.mpr ⟨?_, rest.linked⟩⟩
  · intro other member
    rcases List.mem_cons.mp member with rfl | later
    · exact follows
    · exact rest.follows other later
  · intro next isNext
    obtain ⟨first, isFirst, begins⟩ := rest.starts
    obtain rfl := Option.some.inj (isFirst.symm.trans isNext)
    exact ⟨via, last, begins⟩

end Itinerary

namespace View

-----------------------------------------------------------------------------------------------
-- Finished stages
-----------------------------------------------------------------------------------------------

/-- The stage is what becomes of the draft at a node that the pipeline comes to from another one. -/
structure Closed (v : View) (draft : TupleSetDraft) (prev id : NodeId) (stage : TupleSetStage)
    : Prop where
  computation : ∃ c, v.computation id = .ok c ∧ stage.targetComputation = c.name
  target : stage.targetTupleSet = v.outputOf prev
  tupleSets : stage.tupleSets = draft.tupleSets
  probes : ∀ output, (Stage.tupleSet stage).probesJoin output = draft.probes.contains output

variable {v : View} {g : Graph} {next : StageId} {draft done : TupleSetDraft}
  {here prev id : NodeId} {stage : TupleSetStage} {segment : Segment} {strategy : JoinStrategy}
  {hashSet start : String}

theorem closed_of_finished {c : Computation} (found : v.computation id = .ok c)
    (finished : done.Finished stage) (computation : done.targetComputation = some c.name)
    (target : done.targetTupleSet = some (v.outputOf prev))
    (tupleSets : done.tupleSets = draft.tupleSets) (probes : done.probes = draft.probes)
    : v.Closed draft prev id stage := by
  refine ⟨⟨c, found, ?_⟩, ?_, finished.tupleSets.trans tupleSets, ?_⟩
  · exact Option.some.inj (finished.targetComputation.symm.trans computation)
  · exact Option.some.inj (finished.targetTupleSet.symm.trans target)
  · intro output
    rw [probesJoin_of_finished finished, probes]

theorem closed_of_materialize (made : v.materialize next draft prev id = .ok segment)
    : ∃ stage, segment.stages = [.tupleSet stage] ∧ v.Closed draft prev id stage := by
  obtain ⟨c, place, stage, found, -, finished, rfl⟩ := materialize_eq_ok made
  exact ⟨stage, rfl, closed_of_finished found finished rfl rfl rfl rfl⟩

/-- Of the stages of an ending the first one closes the pipeline. -/
theorem Ends.closed (ending : v.Ends next draft prev id segment)
    : ∃ stage,
        segment.stages.filterMap Stage.tupleSet? = [stage] ∧ v.Closed draft prev id stage := by
  cases ending with
  | output kind unread made =>
      obtain ⟨c, sink, stage, found, -, finished, rfl⟩ := output_eq_ok made
      exact ⟨stage, rfl, closed_of_finished found finished rfl rfl rfl rfl⟩
  | materialize kind shared made =>
      obtain ⟨stage, stages, closed⟩ := closed_of_materialize made
      exact ⟨stage, by rw [stages]; rfl, closed⟩
  | aggregate kind made =>
      obtain ⟨c, place, materialized, shuffle, merge, found, -, finished, -, rfl⟩ :=
        aggregate_eq_ok made
      exact ⟨shuffle, rfl, closed_of_finished found finished rfl rfl rfl rfl⟩
  | partition kind made =>
      obtain ⟨c, place, stage, found, -, finished, rfl⟩ := partition_eq_ok made
      exact ⟨stage, rfl, closed_of_finished found finished rfl rfl rfl rfl⟩
  | build kind read accepted made =>
      obtain ⟨c, stage, found, finished, rfl⟩ := joinBuild_eq_ok made
      refine ⟨stage, ?_, closed_of_finished found finished ?_ ?_ ?_ ?_⟩ <;>
        · simp only [buildSegment, buildStage, buildDraft]
          cases v.strategyFor draft <;> rfl

/-- A join is crossed by going on with the draft, or by closing it and going on with the split data
from where it ended.
-/
theorem crossing_cases {c : Crossing}
    (crossed : v.crossing next draft prev id strategy hashSet = .ok c)
    : (c.stages = []
          ∧ c.draft = (draft.addTupleSet (v.outputOf id)).addProbe (v.outputOf id) hashSet)
      ∨ ∃ stage,
          c.stages = [.tupleSet stage]
          ∧ v.Closed draft prev id stage
          ∧ c.draft = v.splitDraft draft id hashSet := by
  cases crosses_of_crossing crossed with
  | broadcast => exact .inl ⟨rfl, rfl⟩
  | split found finished sink splits =>
      exact .inr ⟨_, rfl, closed_of_finished found finished rfl rfl rfl rfl, rfl⟩

-----------------------------------------------------------------------------------------------
-- Drafts along the graph
-----------------------------------------------------------------------------------------------

/-- The draft follows the graph so far, and the node makes its last tuple set. -/
structure Along (v : View) (g : Graph) (draft : TupleSetDraft) (here : NodeId) : Prop where
  path : draft.tupleSets.IsChain g.Feeds
  last : draft.tupleSets.getLast? = some (v.outputOf here)
  probes
    : ∀ output,
        draft.probes.contains output = true
          ↔ output ∈ draft.tupleSets.tail ∧ g.Joins output

theorem along_sourceDraft (g : Graph) (source : NodeId) (set : SetId)
    : v.Along g (v.sourceDraft source set) source := by
  refine ⟨.singleton _, rfl, fun output => ?_⟩
  have none : (v.sourceDraft source set).probes.contains output = false := rfl
  rw [none]
  simp [sourceDraft]

theorem Along.ne_nil (along : v.Along g draft here) : draft.tupleSets ≠ [] := by
  intro none
  have last := along.last
  simp [none] at last

theorem Along.mem_tail_concat (along : v.Along g draft here) (name output : String)
    : output ∈ (draft.tupleSets ++ [name]).tail
        ↔ output ∈ draft.tupleSets.tail ∨ output = name := by
  rw [List.tail_append_of_ne_nil along.ne_nil, List.mem_append, List.mem_singleton]

theorem Along.tupleSets_splitDraft (along : v.Along g draft prev) (id : NodeId)
    (hashSet : String)
    : (v.splitDraft draft id hashSet).tupleSets = [v.outputOf prev, v.outputOf id] := by
  rw [splitDraft, along.last]
  rfl

section Graph

variable {followed : List Arena.Edge} (wired : Arena.Wired g v.topology.arena)
  (ledger : v.topology.arena.Ledger followed)

include wired

theorem feeds_of_edge (edge : id ∈ (v.node prev).consumers)
    : g.Feeds (v.outputOf prev) (v.outputOf id) :=
  ⟨(v.node id).atomic, wired.known id (wired.has_consumer edge), rfl, wired.read_of_edge edge⟩

theorem joins_iff (inside : v.topology.arena.Has id)
    : g.Joins (v.outputOf id) ↔ (v.node id).atomic.kind = .joinSets := by
  constructor
  · rintro ⟨a, member, same, join⟩
    obtain rfl := wired.valid.atomic_eq member (wired.known id inside) same
    exact join
  · exact fun join => ⟨(v.node id).atomic, wired.known id inside, rfl, join⟩

/-- The tuple sets of a draft go on with what reads the last one. -/
theorem Along.path_concat (along : v.Along g draft prev) (edge : id ∈ (v.node prev).consumers)
    : (draft.tupleSets ++ [v.outputOf id]).IsChain g.Feeds := by
  refine List.isChain_append.mpr ⟨along.path, .singleton _, ?_⟩
  intro output isLast other isNext
  obtain rfl := Option.some.inj (along.last.symm.trans isLast)
  obtain rfl := Option.some.inj isNext
  exact feeds_of_edge wired edge

theorem not_joins_of_step (inside : v.topology.arena.Has id)
    (kind : (v.node id).kind = .pipeline)
    : ¬ g.Joins (v.outputOf id) := by
  intro joins
  obtain ⟨state, join⟩ := (wired.join_iff inside).mpr ((joins_iff wired inside).mp joins)
  have both := kind.symm.trans join
  simp at both

theorem Along.pass (along : v.Along g draft prev) (edge : id ∈ (v.node prev).consumers)
    (kind : (v.node id).kind = .pipeline)
    : v.Along g (draft.addTupleSet (v.outputOf id)) id := by
  refine ⟨along.path_concat wired edge, List.getLast?_concat, fun output => ?_⟩
  have noJoin := not_joins_of_step wired (wired.has_consumer edge) kind
  have probes : (draft.addTupleSet (v.outputOf id)).probes = draft.probes := rfl
  rw [probes, along.probes, TupleSetDraft.addTupleSet, along.mem_tail_concat]
  constructor
  · rintro ⟨listed, joins⟩
    exact ⟨.inl listed, joins⟩
  · rintro ⟨listed | rfl, joins⟩
    · exact ⟨listed, joins⟩
    · exact absurd joins noJoin

/-- A draft that probes a join goes on with the join's output. -/
theorem Along.probe (along : v.Along g draft prev) (edge : id ∈ (v.node prev).consumers)
    (joins : g.Joins (v.outputOf id)) (hashSet : String)
    : v.Along g ((draft.addTupleSet (v.outputOf id)).addProbe (v.outputOf id) hashSet) id := by
  refine ⟨along.path_concat wired edge, List.getLast?_concat, fun output => ?_⟩
  have probes : (draft.addTupleSet (v.outputOf id)).probes = draft.probes := rfl
  have tupleSets : ((draft.addTupleSet (v.outputOf id)).addProbe (v.outputOf id) hashSet).tupleSets
      = draft.tupleSets ++ [v.outputOf id] := rfl
  rw [tupleSets, along.mem_tail_concat, TupleSetDraft.addProbe, Table.contains_insert_iff, probes,
    along.probes]
  constructor
  · rintro (rfl | ⟨listed, isJoin⟩)
    · exact ⟨.inr rfl, joins⟩
    · exact ⟨.inl listed, isJoin⟩
  · rintro ⟨listed | rfl, isJoin⟩
    · exact .inr ⟨listed, isJoin⟩
    · exact .inl rfl

/-- What reads split data starts from where the stage ended that splits them. -/
theorem Along.split (along : v.Along g draft prev) (edge : id ∈ (v.node prev).consumers)
    (joins : g.Joins (v.outputOf id)) (hashSet : String)
    : v.Along g (v.splitDraft draft id hashSet) id := by
  have lists := along.tupleSets_splitDraft id hashSet
  refine ⟨?_, by rw [lists]; rfl, fun output => ?_⟩
  · rw [lists]
    exact List.isChain_cons_cons.mpr ⟨feeds_of_edge wired edge, .singleton _⟩
  · rw [lists]
    simp only [splitDraft, Table.contains_insert_iff, List.tail_cons, List.mem_singleton]
    constructor
    · rintro (rfl | none)
      · exact ⟨rfl, joins⟩
      · exact absurd none (by simp [Table.contains_eq_isSome])
    · exact fun listed => .inl listed.1

/-- A pipeline that crosses a join builds and probes the join's output. -/
theorem Along.crossing {c : Crossing} (along : v.Along g draft prev)
    (edge : id ∈ (v.node prev).consumers) (started : (v.node id).IsStarted strategy hashSet)
    (crossed : v.crossing next draft prev id strategy hashSet = .ok c)
    : v.Along g c.draft id := by
  have joins : g.Joins (v.outputOf id) :=
    (joins_iff wired (wired.has_consumer edge)).mpr
      ((wired.join_iff (wired.has_consumer edge)).mp ⟨_, started⟩)
  rcases crossing_cases crossed with ⟨-, here⟩ | ⟨_, -, -, here⟩
  · rw [here]
    exact along.probe wired edge joins hashSet
  · rw [here]
    exact along.split wired edge joins hashSet

/-- A stage that closes a draft follows the graph as far as the draft does. -/
theorem Closed.follows (closed : v.Closed draft prev id stage) (along : v.Along g draft here)
    (names : ∀ name, v.topology.graph.ownName? name = g.ownName? name)
    (edge : id ∈ (v.node prev).consumers)
    : stage.Follows g := by
  obtain ⟨c, found, computation⟩ := closed.computation
  refine ⟨?_, ⟨(v.node id).atomic, wired.known id (wired.has_consumer edge), ?_, ?_⟩, ?_⟩
  · rw [closed.tupleSets]
    exact along.path
  · rw [← names, Graph.ownName?, Graph.computation_eq_ok.mp found, computation]
    rfl
  · rw [closed.target]
    exact wired.read_of_edge edge
  · intro output
    rw [closed.probes, closed.tupleSets]
    exact along.probes output

/-- A crossing leaves at most the stage that splits the probing side, with whose last tuple set the
stages behind it go on.
-/
theorem itinerary_of_crossing {c : Crossing} {stages : List Stage}
    (names : ∀ name, v.topology.graph.ownName? name = g.ownName? name)
    (along : v.Along g draft prev) (edge : id ∈ (v.node prev).consumers)
    (crossed : v.crossing next draft prev id strategy hashSet = .ok c)
    (head : draft.tupleSets.head? = some start)
    (rest
      : ∀ via,
          c.draft.tupleSets.head? = some via →
            Itinerary g via (stages.filterMap Stage.tupleSet?))
    : Itinerary g start ((c.stages ++ stages).filterMap Stage.tupleSet?) := by
  rcases crossing_cases crossed with ⟨none, here⟩ | ⟨stage, split, closed, here⟩
  · rw [none]
    refine rest start ?_
    rw [here]
    exact (List.head?_append_of_ne_nil _ along.ne_nil).trans head
  · have begins : c.draft.tupleSets.head? = some (v.outputOf prev) := by
      rw [here, along.tupleSets_splitDraft]
      rfl
    rw [split]
    exact .cons (closed.follows wired along names edge) (closed.tupleSets ▸ head)
      (closed.tupleSets ▸ along.last) (rest _ begins)

include ledger

/-- The stages of a pipeline follow the graph one behind the other, from where its draft started.
Witness: induction on the pipeline; its draft goes along the graph up to the node before.
-/
theorem Pipeline.itinerary {path : List NodeId}
    (names : ∀ name, v.topology.graph.ownName? name = g.ownName? name)
    (pipeline : v.Pipeline next draft prev path segment) (along : v.Along g draft prev)
    (edge : ∀ id ∈ path.head?, id ∈ (v.node prev).consumers)
    (head : draft.tupleSets.head? = some start)
    : Itinerary g start (segment.stages.filterMap Stage.tupleSet?) := by
  induction pipeline generalizing start with
  | @ends next draft prev id segment ending =>
      obtain ⟨stage, stages, closed⟩ := ending.closed
      rw [stages]
      exact .single (closed.follows wired along names (edge id rfl)) (closed.tupleSets ▸ head)
  | @pass next draft prev id consumer path segment kind active rest ih =>
      refine ih (along.pass wired (edge id rfl) kind) ?_ ?_
      · rintro _ ⟨⟩
        exact ledger.consumer_of_only active
      · exact (List.head?_append_of_ne_nil _ along.ne_nil).trans head
  | @cross next draft prev id strategy hashSet c consumer path segment started crossed active
      rest ih =>
      refine itinerary_of_crossing wired names along (edge id rfl) crossed head fun via begins => ?_
      refine ih (along.crossing wired (edge id rfl) started crossed) ?_ begins
      rintro _ ⟨⟩
      exact ledger.consumer_of_only active
  | @gather next draft prev id strategy hashSet c segment started crossed shared made =>
      refine itinerary_of_crossing wired names along (edge id rfl) crossed head fun via begins => ?_
      obtain ⟨stage, stages, closed⟩ := closed_of_materialize made
      rw [stages]
      exact .single
        (closed.follows wired (along.crossing wired (edge id rfl) started crossed) names
          (edge id rfl))
        (closed.tupleSets ▸ begins)

end Graph

-----------------------------------------------------------------------------------------------
-- Targets
-----------------------------------------------------------------------------------------------

/-- If the node is a join that the draft probes, no second atomic reads what it makes. -/
def ReadOnce (v : View) (g : Graph) (draft : TupleSetDraft) (here : NodeId) : Prop :=
  draft.probes.contains (v.outputOf here) = true → (g.consumersOf (v.outputOf here)).length ≤ 1

/-- All that the graph lets read what a started join makes is still to be planned. -/
def AllWait (v : View) (g : Graph) (p : NodeId) : Prop :=
  (v.node p).isStarted = true →
    (v.node p).active.length = (g.consumersOf (v.outputOf p)).length

/-- A stage that closes a draft is aimed at where the draft is, unless that is gathered. -/
theorem Closed.aims (closed : v.Closed draft prev id stage) (along : v.Along g draft prev)
    (once : v.ReadOnce g draft prev)
    : stage.Aims g := by
  have last : stage.tupleSets.getLast? = some stage.targetTupleSet := by
    rw [closed.tupleSets, closed.target]
    exact along.last
  refine ⟨fun _ => last, ?_⟩
  rintro ⟨output, isLast, probes, several⟩
  obtain rfl : output = v.outputOf prev := by
    rw [last, closed.target] at isLast
    exact (Option.some.inj isLast).symm
  have few := once (closed.probes _ ▸ probes)
  omega

theorem aims_of_split {c : Crossing} (along : v.Along g draft prev) (once : v.ReadOnce g draft prev)
    (crossed : v.crossing next draft prev id strategy hashSet = .ok c)
    : ∀ stage ∈ c.stages.filterMap Stage.tupleSet?, stage.Aims g := by
  rcases crossing_cases crossed with ⟨none, -⟩ | ⟨stage, split, closed, -⟩
  · simp [none]
  · rw [split]
    simpa [Stage.tupleSet?] using closed.aims along once

/-- A pipeline that crosses a join goes on with the join's output behind where it came from, and
probes the join.
-/
theorem Along.tupleSets_of_crossing {c : Crossing} (along : v.Along g draft prev)
    (crossed : v.crossing next draft prev id strategy hashSet = .ok c)
    : (∃ before, c.draft.tupleSets = before ++ [v.outputOf prev] ++ [v.outputOf id])
      ∧ c.draft.probes.contains (v.outputOf id) = true := by
  rcases crossing_cases crossed with ⟨-, here⟩ | ⟨_, -, -, here⟩
  · obtain ⟨before, lists⟩ := List.getLast?_eq_some_iff.mp along.last
    rw [here]
    exact ⟨⟨before, congrArg (· ++ [v.outputOf id]) lists⟩,
      (Table.contains_insert_iff ..).mpr (.inl rfl)⟩
  · rw [here]
    exact ⟨⟨[], along.tupleSets_splitDraft id hashSet⟩,
      (Table.contains_insert_iff ..).mpr (.inl rfl)⟩

section Targets

variable {followed : List Arena.Edge} (wired : Arena.Wired g v.topology.arena)

include wired

/-- A stage that gathers what a join makes is aimed at where the pipeline came from. -/
theorem Closed.aims_of_crossing {c : Crossing} (closed : v.Closed c.draft prev id stage)
    (along : v.Along g draft prev) (edge : id ∈ (v.node prev).consumers)
    (crossed : v.crossing next draft prev id strategy hashSet = .ok c)
    (several : 2 ≤ (g.consumersOf (v.outputOf id)).length)
    : stage.Aims g := by
  obtain ⟨⟨before, lists⟩, probes⟩ := along.tupleSets_of_crossing crossed
  rw [← closed.tupleSets] at lists
  rw [← closed.probes] at probes
  have differs : v.outputOf prev ≠ v.outputOf id := by
    intro same
    obtain rfl := wired.sound.id_eq (Arena.has_of_edge edge) (wired.has_consumer edge) same
    obtain ⟨rank, -, rises⟩ := wired.exists_rank
    exact Nat.lt_irrefl _ (rises _ _ edge)
  have last : stage.tupleSets.getLast? = some (v.outputOf id) := by
    rw [lists, List.getLast?_concat]
  refine ⟨fun alone => absurd ⟨_, last, probes, several⟩ alone, fun _ => ⟨?_, ?_⟩⟩
  · rw [lists, List.dropLast_concat, List.getLast?_concat, closed.target]
  · rw [last, closed.target]
    exact fun same => differs (Option.some.inj same).symm

/-- A step is no join that its draft probes. -/
theorem Along.readOnce_of_step (along : v.Along g draft id) (inside : v.topology.arena.Has id)
    (kind : (v.node id).kind = .pipeline)
    : v.ReadOnce g draft id :=
  fun probes =>
    absurd ((along.probes _).mp probes).2 (not_joins_of_step wired inside kind)

/-- The stages of a pipeline are aimed at the last tuple sets that they build, but for one that
gathers what a join makes.
Witness: induction on the pipeline; what a join makes that it crosses is read by no second atomic.
-/
theorem Pipeline.aims {path : List NodeId} (ledger : v.topology.arena.Ledger followed)
    (pipeline : v.Pipeline next draft prev path segment) (along : v.Along g draft prev)
    (once : v.ReadOnce g draft prev) (edge : ∀ id ∈ path.head?, id ∈ (v.node prev).consumers)
    (waits : ∀ p ∈ path, v.AllWait g p)
    : ∀ stage ∈ segment.stages.filterMap Stage.tupleSet?, stage.Aims g := by
  induction pipeline with
  | @ends next draft prev id segment ending =>
      obtain ⟨stage, stages, closed⟩ := ending.closed
      rw [stages]
      simpa using closed.aims along once
  | @pass next draft prev id consumer path segment kind active rest ih =>
      have after := along.pass wired (edge id rfl) kind
      refine ih after (after.readOnce_of_step wired (wired.has_consumer (edge id rfl)) kind) ?_ ?_
      · rintro _ ⟨⟩
        exact ledger.consumer_of_only active
      · exact fun p member => waits p (List.mem_cons_of_mem _ member)
  | @cross next draft prev id strategy hashSet c consumer path segment started crossed active
      rest ih =>
      rw [Segment.across, List.filterMap_append]
      intro stage member
      rcases List.mem_append.mp member with split | later
      · exact aims_of_split along once crossed stage split
      · refine ih (along.crossing wired (edge id rfl) started crossed) ?_ ?_ ?_ stage later
        · intro _
          rw [← waits id (by simp) started.isStarted, active]
          simp
        · rintro _ ⟨⟩
          exact ledger.consumer_of_only active
        · exact fun p member => waits p (List.mem_cons_of_mem _ member)
  | @gather next draft prev id strategy hashSet c segment started crossed shared made =>
      rw [Segment.across, List.filterMap_append]
      intro stage member
      rcases List.mem_append.mp member with split | last
      · exact aims_of_split along once crossed stage split
      · obtain ⟨closing, stages, closed⟩ := closed_of_materialize made
        obtain rfl : stage = closing := by
          rw [stages] at last
          simpa [Stage.tupleSet?] using last
        refine closed.aims_of_crossing wired along (edge id rfl) crossed ?_
        rw [← waits id (by simp) started.isStarted]
        exact shared

end Targets

end View

end DataflowPlan
