import DataflowPlan.Proofs.Analysis.Arrival
import DataflowPlan.Proofs.Analysis.Deposits
import DataflowPlan.Proofs.Analysis.InPlace

/-! Where pipelines stop, and where their output is placed. A pipeline that stops at a node is
planned if the output of the node has a place, and fails for want of one otherwise.
-/

namespace DataflowPlan

/-- The set that is written last. -/
def finalSink? (stages : List Stage) : Option SetId :=
  stages.getLast?.bind Stage.sink?

theorem finalSink?_cons {stages : List Stage} {sink : SetId} (stage : Stage)
    (final : finalSink? stages = some sink)
    : finalSink? (stage :: stages) = some sink := by
  cases stages with
  | nil => simp [finalSink?] at final
  | cons first rest => simpa [finalSink?] using final

/-- The output is put in its place, and the sets that are new there are declared; without a place
the analysis fails.
-/
inductive Verdict.Puts (verdict : Verdict) : Except Error Placement → Prop
  | placed {place segment} (planned : verdict = .planned segment)
    (final : finalSink? segment.stages = some place.sink)
    (declares : place.declared ⊆ segment.intermediateSets)
    : verdict.Puts (.ok place)
  | failed {error} (failed : verdict = .failed error) : verdict.Puts (.error error)

/-- A change that keeps what is written last and what is declared keeps where the output is put. -/
theorem Verdict.Puts.mapSegment {a : Analysis} {result : Except Error Placement}
    {change : Segment → Segment} (puts : a.verdict.Puts result)
    (final
      : ∀ (s : Segment) (sink : SetId),
          finalSink? s.stages = some sink → finalSink? (change s).stages = some sink)
    (sets : ∀ s, s.intermediateSets ⊆ (change s).intermediateSets)
    : (a.mapSegment change).verdict.Puts result := by
  obtain ⟨reached, verdict⟩ := a
  cases puts with
  | failed failed =>
      obtain rfl : verdict = .failed _ := failed
      exact .failed rfl
  | @placed place segment planned sink declares =>
      obtain rfl : verdict = .planned segment := planned
      exact .placed rfl (final segment place.sink sink) fun set member =>
        sets segment (declares member)

namespace View

variable {v : View} {next : StageId} {draft : TupleSetDraft} {prev id source : NodeId}
  {first : StageId} {c : Computation}

-----------------------------------------------------------------------------------------------
-- Endings
-----------------------------------------------------------------------------------------------

/-- A pipeline that comes to the node ends there, and not in a join that it builds. -/
def stops (v : View) (id : NodeId) : Bool :=
  match (v.node id).kind with
  | .pipeline => (v.node id).active.length != 1
  | .aggregation | .partition => true
  | .join state => state.isTransversed && decide (2 ≤ (v.node id).active.length)

/-- The place of an output that nothing is left to read: the set that the computation names. -/
def outputPlacement (c : Computation) : Except Error Placement := do
  let sink ← c.sinkSet
  pure ⟨sink, [], []⟩

/-- The place of the output of a pipeline that stops at the node. -/
def placeAt (v : View) (id : NodeId) (c : Computation) : Except Error Placement :=
  match (v.node id).kind with
  | .aggregation => Prod.fst <$> v.aggregatePlacement id c
  | .partition => v.partitionPlacement id c
  | .pipeline | .join _ =>
    if (v.node id).hasConsumers then v.placement id c else outputPlacement c

theorem output_puts (begun : draft.Begun) (found : v.computation id = .ok c)
    : (Analysis.ofEnding next (v.output next draft prev id)).verdict.Puts
        (outputPlacement c) := by
  cases names : c.sinkSet with
  | error error =>
      simp only [output, outputPlacement, found, names, Except.ok_bind, Except.error_bind]
      exact .failed rfl
  | ok sink =>
      obtain ⟨stage, done⟩ := TupleSetDraft.exists_finish
        (d := draft.close next (v.outputOf prev) c c.outputType sink)
        ⟨begun.source, begun.sourceTupleSet⟩ rfl rfl rfl rfl rfl
      simp only [output, outputPlacement, found, names, done, Except.ok_bind]
      exact .placed rfl (TupleSetDraft.finished_of_finish done).sink.symm (List.Subset.refl _)

theorem materialize_puts (begun : draft.Begun) (found : v.computation id = .ok c)
    : (Analysis.ofEnding next (v.materialize next draft prev id)).verdict.Puts
        (v.placement id c) := by
  cases placed : v.placement id c with
  | error error =>
      simp only [materialize, found, placed, Except.ok_bind, Except.error_bind]
      exact .failed rfl
  | ok place =>
      obtain ⟨stage, done⟩ := TupleSetDraft.exists_finish
        (d := draft.close next (v.outputOf prev) c c.outputType place.sink)
        ⟨begun.source, begun.sourceTupleSet⟩ rfl rfl rfl rfl rfl
      simp only [materialize, found, placed, done, Except.ok_bind]
      exact .placed rfl (TupleSetDraft.finished_of_finish done).sink.symm (List.Subset.refl _)

theorem aggregate_puts (begun : draft.Begun) (found : v.computation id = .ok c)
    : (Analysis.ofEnding next (v.aggregate next draft prev id)).verdict.Puts
        (Prod.fst <$> v.aggregatePlacement id c) := by
  rw [aggregate_eq]
  cases placed : v.aggregatePlacement id c with
  | error error =>
      simp only [found, placed, Except.ok_bind, Except.error_bind]
      exact .failed rfl
  | ok pair =>
      obtain ⟨place, materialized⟩ := pair
      obtain ⟨shuffle, done⟩ : ∃ stage, (v.shuffleDraft next draft prev id c).finish = .ok stage :=
        TupleSetDraft.exists_finish ⟨begun.source, begun.sourceTupleSet⟩ rfl rfl rfl rfl rfl
      simp only [found, placed, done, finish_mergeDraft, Except.ok_bind]
      refine .placed rfl rfl fun set member => ?_
      simp [aggregateSegment, show set ∈ place.declared from member]

theorem partition_puts (begun : draft.Begun) (found : v.computation id = .ok c)
    : (Analysis.ofEnding next (v.partition next draft prev id)).verdict.Puts
        (v.partitionPlacement id c) := by
  rw [partition_eq]
  cases placed : v.partitionPlacement id c with
  | error error =>
      simp only [found, placed, Except.ok_bind, Except.error_bind]
      exact .failed rfl
  | ok place =>
      obtain ⟨stage, done⟩ : ∃ stage,
          (v.vectorDraft next draft prev c place.sink).finish = .ok stage :=
        TupleSetDraft.exists_finish ⟨begun.source, begun.sourceTupleSet⟩ rfl rfl rfl rfl rfl
      simp only [found, placed, done, Except.ok_bind]
      exact .placed rfl (TupleSetDraft.finished_of_finish done).sink.symm (List.Subset.refl _)

/-- A pipeline that crosses a join to several consumers puts its output where they can read it. -/
theorem join_puts {follow : Continuation} (begun : draft.Begun)
    (found : v.computation id = .ok c) {state : JoinState} (kind : (v.node id).kind = .join state)
    (started : state.isTransversed = true) (shared : 2 ≤ (v.node id).active.length)
    : (v.join follow next draft prev id).verdict.Puts (v.placement id c) := by
  have probed : ∀ {next : StageId} {draft : TupleSetDraft}, draft.Begun →
      (v.joinProbe follow next draft prev id).verdict.Puts (v.placement id c) := by
    intro next draft begun
    match active : (v.node id).active, shared with
    | one :: other :: rest, _ =>
        simp only [joinProbe, active]
        exact materialize_puts begun found
  have read := PhysicalNode.hasConsumers_of_shared shared
  simp only [join, read, PhysicalNode.join?, kind, Bool.not_true, Bool.false_eq_true, if_false,
    Option.getD_some]
  cases state with
  | notStarted => simp [JoinState.isTransversed] at started
  | started strategy hashSet =>
      cases strategy with
      | broadcast => exact probed ⟨begun.source, begun.sourceTupleSet⟩
      | hashPartitioned =>
          obtain ⟨stage, data, split⟩ := exists_splitProbe next prev begun found hashSet
          have begins : (v.splitDraft draft id hashSet).Begun :=
            ⟨⟨_, rfl⟩, begun.sourceTupleSet⟩
          simp only [split]
          refine (probed begins).mapSegment ?_ fun s => List.subset_cons_self _ _
          exact fun s sink final => finalSink?_cons stage final

/-- A pipeline that stops at a node puts its output in the place that it has there. -/
theorem follow_puts (stops : v.stops id = true) (begun : draft.Begun)
    (found : v.computation id = .ok c) (steps : Nat)
    : (v.follow (steps + 1) next draft prev id).verdict.Puts (v.placeAt id c) := by
  unfold View.stops at stops
  simp only [follow, PhysicalNode.route, placeAt]
  cases kind : (v.node id).kind with
  | aggregation => exact aggregate_puts begun found
  | partition => exact partition_puts begun found
  | pipeline =>
      simp only [kind, bne_iff_ne, ne_eq] at stops
      cases active : (v.node id).active with
      | nil =>
          simp only [PhysicalNode.hasConsumers, active, List.isEmpty_nil, Bool.not_true,
            Bool.false_eq_true, if_false]
          exact output_puts begun found
      | cons one others =>
          cases others with
          | nil => simp [active] at stops
          | cons other rest =>
              simp only [PhysicalNode.hasConsumers, active, List.isEmpty_cons, Bool.not_false,
                if_true]
              exact materialize_puts begun found
  | join state =>
      simp only [kind, Bool.and_eq_true, decide_eq_true_eq] at stops
      simp only [PhysicalNode.hasConsumers_of_shared stops.2, if_true]
      exact join_puts begun found kind stops.1 stops.2

-----------------------------------------------------------------------------------------------
-- Redirections
-----------------------------------------------------------------------------------------------

/-- Where a computation is redirected, its output is gathered for several consumers. -/
theorem Closes.gathered {last : NodeId} {segment : Segment} (closes : v.Closes last segment)
    {name database set : String} (member : .redirect name database set ∈ segment.changes)
    : v.Gathered last := by
  cases closes with
  | ends ending =>
      cases ending with
      | output kind unread made =>
          obtain ⟨c, sink, stage, -, -, -, rfl⟩ := output_eq_ok made
          simp at member
      | materialize kind shared made => exact .inl shared
      | aggregate kind made =>
          obtain ⟨c, place, materialized, shuffle, merge, -, placed, -, -, rfl⟩ :=
            aggregate_eq_ok made
          cases aggregatePlacement_eq_ok placed with
          | unread none names => simp at member
          | kept one keeps names => simp at member
          | handed one unkept => simp at member
          | shared several own => exact .inl several
      | partition kind made =>
          obtain ⟨c, place, stage, -, placed, -, rfl⟩ := partition_eq_ok made
          rcases partitionPlacement_eq_ok placed with ⟨-, _, -, rfl⟩ | ⟨read, -⟩
          · simp at member
          · exact .inr ⟨kind, read⟩
      | build kind read accepted made =>
          obtain ⟨c, stage, -, -, rfl⟩ := joinBuild_eq_ok made
          simp [buildSegment] at member
  | gathers started shared made => exact .inl shared

/-- A course redirects at most the computation of its last node, for several consumers there, and
only if the computation does not keep its output already.
-/
theorem Course.redirected {last : NodeId} {init : List NodeId} {segment : Segment}
    (course : v.Course source init last segment) {name database set : String}
    (member : .redirect name database set ∈ segment.changes)
    : ∃ c,
        v.computation last = .ok c
        ∧ c.materializeOutput = false
        ∧ v.Gathered last
        ∧ name = c.name
        ∧ database = v.jobId
        ∧ set = v.outputOf last
        ∧ (segment.apply v.topology).graph
          = v.topology.graph.modifyComputation c.name (·.setOutput v.jobId (v.outputOf last)) := by
  obtain ⟨closing, nodes, closes, -, changes, graph⟩ := course.closing
  have here : .redirect name database set ∈ closing.changes := by
    rw [changes] at member
    simpa using member
  rcases closes.changes with ⟨-, c, strategy, hashSet, -, only⟩ | ⟨-, placed⟩
  · simp [only] at here
  · cases placed with
    | nowhere source only => simp [only] at here
    | kept found keeps names key source only => simp [only] at here
    | redirected found unkept key source only =>
        rw [only] at graph
        have same := here
        rw [only, List.mem_singleton, Change.redirect.injEq] at same
        exact ⟨_, found, unkept, closes.gathered here, same.1, same.2.1, same.2.2, graph⟩
    | handed kind key source only => simp [only] at here

/-- A computation that a course does not redirect changes at most in how it joins. -/
theorem Course.unredirected {last : NodeId} {init : List NodeId} {segment : Segment}
    (course : v.Course source init last segment) {name : String}
    (none : ∀ database set, .redirect name database set ∉ segment.changes)
    (found : v.topology.graph.computation name = .ok c)
    : (segment.apply v.topology).graph.computation name = .ok c
      ∨ ∃ strategy,
          (segment.apply v.topology).graph.computation name = .ok (c.setStrategy strategy) := by
  obtain ⟨closing, nodes, closes, -, changes, graph⟩ := course.closing
  rcases closes.changes with ⟨-, other, strategy, hashSet, -, only⟩ | ⟨-, placed⟩
  · rw [only] at graph
    have after := Graph.computation_modify found other.name (·.setStrategy strategy)
    rw [show v.topology.graph.modifyComputation _ _ = _ from graph.symm] at after
    by_cases same : name = other.name
    · exact .inr ⟨strategy, by rw [after, if_pos same]⟩
    · exact .inl (by rw [after, if_neg same])
  · cases placed with
    | nowhere source only => exact .inl (by rw [graph, only]; exact found)
    | kept here keeps names key source only => exact .inl (by rw [graph, only]; exact found)
    | @redirected other set here unkept key source only =>
        rw [only] at graph
        have after := Graph.computation_modify found other.name
          (·.setOutput v.jobId (v.outputOf last))
        rw [show v.topology.graph.modifyComputation _ _ = _ from graph.symm] at after
        have differs : name ≠ other.name := by
          rintro rfl
          exact none v.jobId (v.outputOf last) (by simp [changes, only])
        exact .inl (by rw [after, if_neg differs])
    | handed kind key source only => exact .inl (by rw [graph, only]; exact found)

-----------------------------------------------------------------------------------------------
-- Ways
-----------------------------------------------------------------------------------------------

/-- The pipeline from the source comes to the last of the nodes from the one before, with the stage
identifier and the draft that it has by then.
-/
inductive Comes (v : View) (source : NodeId) (first : StageId)
    : StageId → TupleSetDraft → NodeId → NodeId → Prop
  | start {set consumer others} (isSource : (v.node source).sourceSet = some set)
    (active : (v.node source).active = consumer :: others)
    : v.Comes source first first (v.sourceDraft source set) source consumer
  | pass {next draft prev id consumer} (before : v.Comes source first next draft prev id)
    (kind : (v.node id).kind = .pipeline) (active : (v.node id).active = [consumer])
    : v.Comes source first next (draft.addTupleSet (v.outputOf id)) id consumer
  | cross {next draft prev id strategy hashSet c consumer}
    (before : v.Comes source first next draft prev id)
    (started : (v.node id).IsStarted strategy hashSet)
    (crossed : v.crossing next draft prev id strategy hashSet = .ok c)
    (active : (v.node id).active = [consumer])
    : v.Comes source first c.next c.draft id consumer

/-- The pipeline from the source comes to the node and stops there. -/
def StopsAt (v : View) (source : NodeId) (first : StageId) (id : NodeId) : Prop :=
  (∃ next draft prev, v.Comes source first next draft prev id) ∧ v.stops id = true

theorem Comes.begun (comes : v.Comes source first next draft prev id)
    : draft.Begun := by
  induction comes with
  | start isSource active => exact ⟨⟨_, rfl⟩, ⟨_, rfl⟩⟩
  | pass before kind active ih => exact ⟨ih.source, ih.sourceTupleSet⟩
  | cross before started crossed active ih =>
      cases crosses_of_crossing crossed with
      | broadcast => exact ⟨ih.source, ih.sourceTupleSet⟩
      | split found finished sink splits => exact ⟨⟨_, rfl⟩, ih.sourceTupleSet⟩

/-- A planned pipeline comes to its last node, where it stops or builds a join.
Witness: induction on the rest of the pipeline.
-/
theorem Pipeline.comes {path : List NodeId} {segment : Segment}
    (pipeline : v.Pipeline next draft prev path segment) {init : List NodeId} {last : NodeId}
    (whole : path = init ++ [last])
    (comes : ∀ id, path.head? = some id → v.Comes source first next draft prev id)
    : (∃ next draft prev, v.Comes source first next draft prev last)
      ∧ (v.stops last = true ∨ (v.node last).kind = .join .notStarted) := by
  induction pipeline generalizing init with
  | @ends next draft prev id segment ending =>
      obtain ⟨rfl, rfl⟩ : [] = init ∧ id = last := List.append_singleton_inj.mp whole
      refine ⟨⟨_, _, _, comes id rfl⟩, ?_⟩
      cases ending with
      | output kind unread made => exact .inl (by simp [stops, kind, unread])
      | materialize kind shared made =>
          refine .inl ?_
          simp only [stops, kind, bne_iff_ne, ne_eq]
          omega
      | aggregate kind made => exact .inl (by simp [stops, kind])
      | partition kind made => exact .inl (by simp [stops, kind])
      | build kind read accepted made => exact .inr kind
  | @pass next draft prev id consumer path segment kind active rest ih =>
      cases init with
      | nil => simp at whole
      | cons head init =>
          refine ih (List.cons.inj whole).2 ?_
          rintro _ ⟨⟩
          exact .pass (comes id rfl) kind active
  | @cross next draft prev id strategy hashSet c consumer path segment started crossed active rest
      ih =>
      cases init with
      | nil => simp at whole
      | cons head init =>
          refine ih (List.cons.inj whole).2 ?_
          rintro _ ⟨⟩
          exact .cross (comes id rfl) started crossed active
  | @gather next draft prev id strategy hashSet c segment started crossed shared made =>
      obtain ⟨rfl, rfl⟩ : [] = init ∧ id = last := List.append_singleton_inj.mp whole
      refine ⟨⟨_, _, _, comes id rfl⟩, .inl ?_⟩
      simp [stops, show (v.node id).kind = _ from started, JoinState.isTransversed, shared]

/-- What becomes of a pipeline behind a step becomes of it at the step. -/
theorem puts_pass {steps : Nat} {consumer : NodeId} {result : Except Error Placement}
    (kind : (v.node id).kind = .pipeline) (active : (v.node id).active = [consumer])
    (puts
      : (v.follow steps next (draft.addTupleSet (v.outputOf id)) id consumer).verdict.Puts result)
    : (v.follow (steps + 1) next draft prev id).verdict.Puts result := by
  simp only [follow, PhysicalNode.route, kind, active, passThrough]
  exact puts.mapSegment (fun _ _ final => final) fun s => List.Subset.refl _

/-- What becomes of a pipeline behind a join that it crosses becomes of it at the join. -/
theorem puts_cross {steps : Nat} {consumer : NodeId} {strategy : JoinStrategy} {hashSet : String}
    {c : Crossing} {result : Except Error Placement}
    (started : (v.node id).IsStarted strategy hashSet)
    (crossed : v.crossing next draft prev id strategy hashSet = .ok c)
    (active : (v.node id).active = [consumer])
    (puts : (v.follow steps c.next c.draft id consumer).verdict.Puts result)
    : (v.follow (steps + 1) next draft prev id).verdict.Puts result := by
  have kind : (v.node id).kind = .join (.started strategy hashSet) := started
  simp only [follow, PhysicalNode.route, kind, View.join, PhysicalNode.hasConsumers,
    PhysicalNode.join?, active, joinProbe, List.isEmpty_cons, Bool.not_false,
    Bool.not_true, Bool.false_eq_true, if_false, Option.getD_some]
  cases crosses_of_crossing crossed with
  | broadcast => exact puts
  | @split c stage found finished sink splits =>
      simp only [splits]
      refine puts.mapSegment ?_ fun s => List.subset_cons_self _ _
      exact fun s sink final => finalSink?_cons (.tupleSet stage) final

section Wired

variable {g : Graph} {followed : List Arena.Edge} (wired : Arena.Wired g v.topology.arena)
  (ledger : v.topology.arena.Ledger followed)

include wired ledger

/-- A pipeline comes to a node over an edge that was not followed before.
Witness: induction on the way. From most nodes the queue tells; a join that is crossed was not
complete before, as the edge that leads to it was not followed.
-/
theorem Comes.fresh (comes : v.Comes source first next draft prev id)
    : id ∈ (v.node prev).consumers ∧ (prev, id) ∉ followed := by
  induction comes with
  | @start set consumer others isSource active =>
      have isSource : (v.topology.arena.node source).sourceSet ≠ none := by
        rw [show (v.topology.arena.node source).sourceSet = _ from isSource]
        simp
      refine (ledger.queued source (ledger.sources source isSource).2 consumer).mp ?_
      rw [show (v.topology.arena.node source).active = _ from active]
      simp
  | @pass next draft prev id consumer before kind active ih =>
      have inside := wired.has_consumer ih.1
      have step : ¬ v.topology.arena.Solo id := by
        rintro ⟨join, -⟩
        obtain ⟨state, other⟩ := (wired.join_iff inside).mpr join
        exact absurd (kind.symm.trans other) (by simp)
      refine (ledger.queued id step consumer).mp ?_
      rw [show (v.topology.arena.node id).active = _ from active]
      simp
  | @cross next draft prev id strategy hashSet c consumer before started crossed active ih =>
      have join := (wired.join_iff (wired.has_consumer ih.1)).mp ⟨_, started⟩
      have queued : consumer ∈ (v.topology.arena.node id).active := by
        rw [show (v.topology.arena.node id).active = _ from active]
        simp
      refine ⟨ledger.consumer_of_active queued, fun come => ?_⟩
      have reached : v.topology.arena.Reached followed id := ledger.reached _ come
      exact ledger.not_reached wired ih.1 ih.2 (fun step => absurd join step) reached

/-- What becomes of a pipeline at a node that it comes to becomes of it as a whole, and steps are
left for all nodes that rank higher.
Witness: induction on the way, along which ranks rise.
-/
theorem Comes.onward (comes : v.Comes source first next draft prev id) {rank : NodeId → Nat}
    (below : ∀ p, v.topology.arena.Has p → rank p < g.atomics.length)
    (rises : ∀ p, ∀ c ∈ (v.topology.arena.node p).consumers, rank p < rank c)
    : ∃ steps,
        g.atomics.length ≤ steps + rank id
        ∧ ∀ result,
            (v.follow steps next draft prev id).verdict.Puts result →
              (v.analyze source first).verdict.Puts result := by
  induction comes with
  | @start set consumer others isSource active =>
      refine ⟨v.topology.arena.size, by rw [wired.size_eq]; omega, fun result puts => ?_⟩
      unfold analyze passThrough
      rw [isSource, active]
      exact puts.mapSegment (fun _ _ final => final) fun s => List.Subset.refl _
  | @pass next draft prev id consumer before kind active ih =>
      obtain ⟨steps, enough, onward⟩ := ih
      have inside := below id (wired.has_consumer (before.fresh wired ledger).1)
      have higher := rises id consumer ((before.pass kind active).fresh wired ledger).1
      obtain ⟨steps, rfl⟩ : ∃ others, steps = others + 1 := ⟨steps - 1, by omega⟩
      exact ⟨steps, by omega, fun result puts => onward result (puts_pass kind active puts)⟩
  | @cross next draft prev id strategy hashSet c consumer before started crossed active ih =>
      obtain ⟨steps, enough, onward⟩ := ih
      have inside := below id (wired.has_consumer (before.fresh wired ledger).1)
      have higher := rises id consumer
        ((before.cross started crossed active).fresh wired ledger).1
      obtain ⟨steps, rfl⟩ : ∃ others, steps = others + 1 := ⟨steps - 1, by omega⟩
      exact ⟨steps, by omega,
        fun result puts => onward result (puts_cross started crossed active puts)⟩

/-- What becomes of a pipeline at a node that it comes to becomes of it as a whole. -/
theorem Comes.puts (comes : v.Comes source first next draft prev id)
    {result : Except Error Placement}
    (puts : ∀ steps, (v.follow (steps + 1) next draft prev id).verdict.Puts result)
    : (v.analyze source first).verdict.Puts result := by
  obtain ⟨rank, below, rises⟩ := wired.exists_rank
  obtain ⟨steps, enough, onward⟩ := comes.onward wired ledger below rises
  have inside := below id (wired.has_consumer (comes.fresh wired ledger).1)
  obtain ⟨steps, rfl⟩ : ∃ others, steps = others + 1 := ⟨steps - 1, by omega⟩
  exact onward result (puts steps)

/-- A pipeline that stops at a node is planned if its output has a place there, and fails if not. -/
theorem StopsAt.puts (stopsAt : v.StopsAt source first id) (found : v.computation id = .ok c)
    : (v.analyze source first).verdict.Puts (v.placeAt id c) := by
  obtain ⟨⟨next, draft, prev, comes⟩, stops⟩ := stopsAt
  exact comes.puts wired ledger fun steps => follow_puts stops comes.begun found steps

end Wired

end View

end DataflowPlan
