import DataflowPlan.Proofs.Analysis.Course

/-! Visits: the stages of a planned pipeline, told apart by the nodes that it comes to. Each stage
is planned for the computation of one of them, and each join that is crossed is probed by one
stage.
-/

namespace DataflowPlan

namespace Stage

/-- The computation that the stage is planned for. -/
def computation : Stage → String
  | .tupleSet s => s.targetComputation
  | .aggregation s => s.computation
  | .broadcastBuild s => s.targetComputation
  | .partitionedBuild s => s.targetComputation

/-- The stage builds a hash table. -/
def isBuild : Stage → Bool
  | .broadcastBuild _ | .partitionedBuild _ => true
  | .tupleSet _ | .aggregation _ => false

/-- The stage builds a hash table of data that is split by key. -/
def isPartitionedBuild : Stage → Bool
  | .partitionedBuild _ => true
  | .tupleSet _ | .aggregation _ | .broadcastBuild _ => false

def isAggregation : Stage → Bool
  | .aggregation _ => true
  | .tupleSet _ | .broadcastBuild _ | .partitionedBuild _ => false

/-- The stage splits a set by key for its readers. -/
def isVector : Stage → Bool
  | .tupleSet s => s.repartitionVector
  | .aggregation _ | .broadcastBuild _ | .partitionedBuild _ => false

/-- The stage probes the hash table of the join that makes the tuple set. -/
def probesJoin (output : String) : Stage → Bool
  | .tupleSet s => (s.probes.map (·.contains output)).getD false
  | .aggregation _ | .broadcastBuild _ | .partitionedBuild _ => false

end Stage

/-- The join's hash table is built. -/
def PhysicalNode.isStarted (node : PhysicalNode) : Bool :=
  match node.kind with
  | .join (.started _ _) => true
  | _ => false

theorem PhysicalNode.isStarted_iff {node : PhysicalNode}
    : node.isStarted = true ↔ ∃ strategy hashSet, node.IsStarted strategy hashSet := by
  unfold isStarted IsStarted
  split
  · next kind => exact ⟨fun _ => ⟨_, _, kind⟩, fun _ => rfl⟩
  · next other => exact ⟨nofun, fun ⟨strategy, hashSet, kind⟩ => absurd kind (other _ _)⟩

theorem PhysicalNode.IsStarted.isStarted {node : PhysicalNode} {strategy : JoinStrategy}
    {hashSet : String} (started : node.IsStarted strategy hashSet)
    : node.isStarted = true :=
  isStarted_iff.mpr ⟨strategy, hashSet, started⟩

namespace View

/-- What the probing side of a join leaves before it crosses the join. -/
def Splits : JoinStrategy → List Stage → Prop
  | .broadcast, stages => stages = []
  | .hashPartitioned, stages => ∃ stage, stages = [.tupleSet stage]

/-- What the arrival of a pipeline leaves of stages, by what it finds at the node. -/
inductive Leaves (v : View) (changes : List Change) (p : NodeId) : List Stage → Prop
  | passed {consumer} (kind : (v.node p).kind = .pipeline)
    (active : (v.node p).active = [consumer])
    : v.Leaves changes p []
  | output {c stage} (kind : (v.node p).kind = .pipeline) (unread : (v.node p).active = [])
    (found : v.computation p = .ok c) (sink : c.sinkSet = .ok stage.sink)
    : v.Leaves changes p [.tupleSet stage]
  | materialized {stage} (kind : (v.node p).kind = .pipeline)
    (shared : 2 ≤ (v.node p).active.length)
    : v.Leaves changes p [.tupleSet stage]
  | aggregated {shuffle merge} (kind : (v.node p).kind = .aggregation)
    : v.Leaves changes p [.tupleSet shuffle, .aggregation merge]
  | partitioned {stage} (kind : (v.node p).kind = .partition)
    (vector : stage.repartitionVector = true)
    : v.Leaves changes p [.tupleSet stage]
  | built {stage build name strategy hashSet} (kind : (v.node p).kind = .join .notStarted)
    (starts : .startJoin p name strategy hashSet ∈ changes) (builds : build.isBuild = true)
    (partitioned : build.isPartitionedBuild = true ↔ strategy = .hashPartitioned)
    : v.Leaves changes p [.tupleSet stage, build]
  | crossed {strategy hashSet stages consumer} (started : (v.node p).IsStarted strategy hashSet)
    (splits : Splits strategy stages) (active : (v.node p).active = [consumer])
    : v.Leaves changes p stages
  | gathered {strategy hashSet stages stage} (started : (v.node p).IsStarted strategy hashSet)
    (splits : Splits strategy stages) (shared : 2 ≤ (v.node p).active.length)
    : v.Leaves changes p (stages ++ [.tupleSet stage])

/-- The stages that the arrival at a node leaves, which are all planned for its computation. -/
structure Visit (v : View) (changes : List Change) (p : NodeId) (stages : List Stage) : Prop where
  leaves : v.Leaves changes p stages
  targets : ∀ stage ∈ stages, stage.computation = (v.node p).atomic.computation

theorem Leaves.mono {v : View} {changes more : List Change} {p : NodeId} {stages : List Stage}
    (leaves : v.Leaves changes p stages) (sub : changes ⊆ more)
    : v.Leaves more p stages := by
  cases leaves with
  | passed kind active => exact .passed kind active
  | output kind unread found sink => exact .output kind unread found sink
  | materialized kind shared => exact .materialized kind shared
  | aggregated kind => exact .aggregated kind
  | partitioned kind vector => exact .partitioned kind vector
  | built kind starts builds partitioned => exact .built kind (sub starts) builds partitioned
  | crossed started splits active => exact .crossed started splits active
  | gathered started splits shared => exact .gathered started splits shared

variable {v : View} {next : StageId} {draft : TupleSetDraft} {prev id : NodeId}

theorem target_of_close {d : TupleSetDraft} {stage : TupleSetStage} {c : Computation}
    (named : v.topology.graph.Named) (found : v.computation id = .ok c)
    (target : d.targetComputation = some c.name) (finished : d.Finished stage)
    : stage.targetComputation = (v.node id).atomic.computation := by
  rw [finished.targetComputation] at target
  rw [Option.some.inj target]
  exact named _ _ (Graph.computation_eq_ok.mp found)

/-- The stages of an ending are a visit of its node. -/
theorem Ends.visit {segment : Segment} (named : v.topology.graph.Named)
    (ending : v.Ends next draft prev id segment)
    : v.Visit segment.changes id segment.stages := by
  cases ending with
  | output kind unread made =>
      obtain ⟨c, sink, stage, found, names, finished, rfl⟩ := output_eq_ok made
      have same : stage.sink = sink := (Option.some.inj finished.sink).symm
      refine ⟨.output kind unread found (same ▸ names), ?_⟩
      simp [Stage.computation, target_of_close named found rfl finished]
  | materialize kind shared made =>
      obtain ⟨c, place, stage, found, -, finished, rfl⟩ := materialize_eq_ok made
      refine ⟨.materialized kind shared, ?_⟩
      simp [Stage.computation, target_of_close named found rfl finished]
  | aggregate kind made =>
      obtain ⟨c, place, materialized, shuffle, merge, found, -, finished, rfl, rfl⟩ :=
        aggregate_eq_ok made
      have name := named _ _ (Graph.computation_eq_ok.mp found)
      refine ⟨.aggregated kind, ?_⟩
      simp [Stage.computation, target_of_close named found rfl finished, name, View.node]
  | partition kind made =>
      obtain ⟨c, place, stage, found, -, finished, rfl⟩ := partition_eq_ok made
      refine ⟨.partitioned kind finished.repartitionVector, ?_⟩
      simp [Stage.computation, target_of_close named found rfl finished]
  | build kind read accepted made =>
      obtain ⟨c, stage, found, finished, rfl⟩ := joinBuild_eq_ok made
      have name := named _ _ (Graph.computation_eq_ok.mp found)
      have target : (v.buildDraft next draft prev id c).targetComputation = some c.name := by
        unfold buildDraft
        cases v.strategyFor draft <;> rfl
      refine ⟨?_, ?_⟩
      · refine .built kind (List.mem_singleton_self _) ?_ ?_ <;>
          · unfold buildStage
            cases v.strategyFor draft <;> simp [Stage.isBuild, Stage.isPartitionedBuild]
      · have built : (v.buildStage next draft prev id c stage.sourceTupleSet).computation
            = c.name := by
          unfold buildStage
          cases v.strategyFor draft <;> rfl
        intro other member
        rcases List.mem_cons.mp member with rfl | last
        · exact target_of_close named found target finished
        · rw [List.mem_singleton.mp last, built, name]

theorem crossing_visit {strategy : JoinStrategy} {hashSet : String} {c : Crossing}
    (named : v.topology.graph.Named)
    (crossed : v.crossing next draft prev id strategy hashSet = .ok c)
    : Splits strategy c.stages
      ∧ ∀ stage ∈ c.stages, stage.computation = (v.node id).atomic.computation := by
  cases crosses_of_crossing crossed with
  | broadcast => exact ⟨rfl, by simp⟩
  | @split c closed found finished sink splits =>
      refine ⟨⟨closed, rfl⟩, ?_⟩
      simp [Stage.computation, target_of_close named found rfl finished]

/-- The stages of a pipeline are those of the visits to its nodes, one after the other.
Witness: induction on the pipeline.
-/
theorem Pipeline.visits {path : List NodeId} {segment : Segment}
    (named : v.topology.graph.Named) (pipeline : v.Pipeline next draft prev path segment)
    : ∃ parts,
        List.Forall₂ (v.Visit segment.changes) path parts ∧ segment.stages = parts.flatten := by
  induction pipeline with
  | @ends next draft prev id segment ending =>
      exact ⟨[segment.stages], .cons (ending.visit named) .nil, by simp⟩
  | pass kind active rest ih =>
      obtain ⟨parts, visits, whole⟩ := ih
      refine ⟨[] :: parts, .cons ⟨.passed kind active, by simp⟩ (visits.imp ?_), ?_⟩
      · exact fun p stages visit =>
          ⟨visit.leaves.mono (List.subset_append_left _ _), visit.targets⟩
      · simpa [Segment.through] using whole
  | @cross next draft prev id strategy hashSet c consumer path segment started crossed active
      rest ih =>
      obtain ⟨parts, visits, whole⟩ := ih
      obtain ⟨splits, targets⟩ := crossing_visit named crossed
      refine ⟨c.stages :: parts, .cons ⟨.crossed started splits active, targets⟩ visits, ?_⟩
      simp [Segment.across, whole]
  | @gather next draft prev id strategy hashSet c segment started crossed shared made =>
      obtain ⟨splits, targets⟩ := crossing_visit named crossed
      obtain ⟨c', place, stage, found, -, finished, rfl⟩ := materialize_eq_ok made
      refine ⟨[c.stages ++ [.tupleSet stage]], .cons ⟨.gathered started splits shared, ?_⟩ .nil,
        by simp [Segment.across]⟩
      intro other member
      rcases List.mem_append.mp member with before | last
      · exact targets other before
      · rw [List.mem_singleton.mp last]
        exact target_of_close named found rfl finished

theorem probesJoin_of_probes {d : TupleSetDraft} {stage : TupleSetStage}
    (probes : stage.probes = if d.isProbing then some d.probes else none) (output : String)
    : (Stage.tupleSet stage).probesJoin output = d.probes.contains output := by
  rw [Stage.probesJoin, probes]
  cases probing : d.isProbing with
  | true => rfl
  | false =>
      have empty : d.probes.entries = [] := by
        simpa [TupleSetDraft.isProbing, Table.isEmpty] using probing
      simp [Table.contains, empty]

theorem probesJoin_of_finished {d : TupleSetDraft} {stage : TupleSetStage}
    (finished : d.Finished stage) (output : String)
    : (Stage.tupleSet stage).probesJoin output = d.probes.contains output :=
  probesJoin_of_probes finished.probes output

/-- The stages of an ending probe what the draft does, in one of them. -/
theorem Ends.count_probes {segment : Segment} (ending : v.Ends next draft prev id segment)
    (output : String)
    : segment.stages.countP (·.probesJoin output)
        = if draft.probes.contains output then 1 else 0 := by
  cases ending with
  | output kind unread made =>
      obtain ⟨c, sink, stage, -, -, finished, rfl⟩ := output_eq_ok made
      simp [List.countP_cons, probesJoin_of_finished finished, TupleSetDraft.close]
  | materialize kind shared made =>
      obtain ⟨c, place, stage, -, -, finished, rfl⟩ := materialize_eq_ok made
      simp [List.countP_cons, probesJoin_of_finished finished, TupleSetDraft.close]
  | aggregate kind made =>
      obtain ⟨c, place, materialized, shuffle, merged, -, -, finished, -, rfl⟩ :=
        aggregate_eq_ok made
      have merges : (Stage.aggregation merged).probesJoin output = false := rfl
      simp [List.countP_cons, probesJoin_of_finished finished, TupleSetDraft.close, merges]
  | partition kind made =>
      obtain ⟨c, place, stage, -, -, finished, rfl⟩ := partition_eq_ok made
      simp [List.countP_cons, probesJoin_of_finished finished, TupleSetDraft.close]
  | build kind read accepted made =>
      obtain ⟨c, stage, -, finished, rfl⟩ := joinBuild_eq_ok made
      have same : (v.buildDraft next draft prev id c).probes = draft.probes := by
        unfold buildDraft
        cases v.strategyFor draft <;> rfl
      have builds : (v.buildStage next draft prev id c stage.sourceTupleSet).probesJoin output
          = false := by
        unfold buildStage
        cases v.strategyFor draft <;> rfl
      simp [buildSegment, List.countP_cons, probesJoin_of_finished finished, same, builds]

/-- The rest of a pipeline probes a crossed join on top of what the draft did before. -/
theorem crossing_probes {strategy : JoinStrategy} {hashSet : String} {c : Crossing}
    (crossed : v.crossing next draft prev id strategy hashSet = .ok c)
    (fresh : draft.probes.contains (v.outputOf id) = false) (output : String)
    : c.stages.countP (·.probesJoin output) + (if c.draft.probes.contains output then 1 else 0)
        = (if draft.probes.contains output then 1 else 0)
          + if v.outputOf id = output then 1 else 0 := by
  have inserted : ∀ (probes : Table String),
      (probes.insert (v.outputOf id) hashSet).contains output
        = (decide (v.outputOf id = output) || probes.contains output) := by
    intro probes
    rw [Table.contains_eq_isSome, Table.get?_insert, Table.contains_eq_isSome]
    by_cases same : output = v.outputOf id
    · simp [same]
    · have differs : ¬ v.outputOf id = output := fun is => same is.symm
      simp [same, differs]
  cases crosses_of_crossing crossed with
  | broadcast =>
      rw [TupleSetDraft.addProbe, inserted]
      by_cases same : v.outputOf id = output
      · subst same
        simp [TupleSetDraft.addTupleSet, fresh]
      · simp [TupleSetDraft.addTupleSet, same]
  | split found finished sink splits =>
      have empty : (∅ : Table String).contains output = false := rfl
      rw [splitDraft, inserted, empty]
      simp [List.countP_cons, probesJoin_of_finished finished, TupleSetDraft.close]

/-- One stage of a pipeline probes each join that it crosses, beside those that the draft probed
before.
Witness: induction on the pipeline; a join is crossed after the others, as no node comes twice.
-/
theorem Pipeline.count_probes {path : List NodeId} {segment : Segment}
    (pipeline : v.Pipeline next draft prev path segment) (output : String)
    (fresh : ∀ p ∈ path, draft.probes.contains (v.outputOf p) = false)
    (distinct : (path.map v.outputOf).Nodup)
    : segment.stages.countP (·.probesJoin output)
        = (if draft.probes.contains output then 1 else 0)
          + path.countP fun p => (v.node p).isStarted && v.outputOf p == output := by
  have step : ∀ {p : NodeId} (rest : List NodeId), (v.node p).isStarted = true →
      (p :: rest).countP (fun p => (v.node p).isStarted && v.outputOf p == output)
        = (if v.outputOf p = output then 1 else 0)
          + rest.countP fun p => (v.node p).isStarted && v.outputOf p == output := by
    intro p rest started
    simp [List.countP_cons, started, Nat.add_comm]
  induction pipeline with
  | @ends next draft prev id segment ending =>
      have notStarted : (v.node id).isStarted = false := by
        cases ending with
        | output kind | materialize kind | aggregate kind | partition kind | build kind =>
            rw [PhysicalNode.isStarted, kind]
      simp [ending.count_probes output, notStarted]
  | @pass next draft prev id consumer path segment kind active rest ih =>
      have notStarted : (v.node id).isStarted = false := by rw [PhysicalNode.isStarted, kind]
      obtain ⟨-, distinct⟩ := List.nodup_cons.mp distinct
      have inner := ih (fun p member => fresh p (List.mem_cons_of_mem _ member)) distinct
      rw [List.countP_cons, notStarted]
      exact inner
  | @cross next draft prev id strategy hashSet c consumer path segment started crossed active
      rest ih =>
      have own := fresh id (by simp)
      obtain ⟨apart, distinct⟩ := List.nodup_cons.mp distinct
      have later : ∀ p ∈ consumer :: path, c.draft.probes.contains (v.outputOf p) = false := by
        intro p member
        have before := fresh p (List.mem_cons_of_mem _ member)
        have other : v.outputOf id ≠ v.outputOf p :=
          fun same => apart (same ▸ List.mem_map_of_mem member)
        have here := crossing_probes crossed own (v.outputOf p)
        rw [before] at here
        simp only [other, Bool.false_eq_true, if_false] at here
        by_contra probed
        simp [probed] at here
      have here := crossing_probes crossed own output
      rw [step _ (started.isStarted), Segment.across, List.countP_append, ih later distinct]
      omega
  | @gather next draft prev id strategy hashSet c segment started crossed shared made =>
      have own := fresh id (by simp)
      have here := crossing_probes crossed own output
      obtain ⟨c', place, stage, -, -, finished, rfl⟩ := materialize_eq_ok made
      rw [step _ (started.isStarted), Segment.across, List.countP_append]
      simp only [List.countP_cons, List.countP_nil, probesJoin_of_finished finished,
        TupleSetDraft.close]
      omega

end View

end DataflowPlan
