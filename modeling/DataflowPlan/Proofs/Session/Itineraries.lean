import DataflowPlan.Proofs.Analysis.Itinerary
import DataflowPlan.Proofs.Session.Declarations

/-! The itineraries of planned attempts: in every run their stages follow the graph from the source
that was picked, and are aimed at the last tuple sets that they build. Only a stage that gathers
what a join makes is aimed at the tuple set before.
-/

namespace DataflowPlan.Session

open View

variable {g : Graph} {first m s : Session} {followed : List Arena.Edge} {stats : Statistics}
  {skip : List String} {key : String} {source last : NodeId} {init : List NodeId}
  {reached next : StageId} {segment inner : Segment} {set : SetId}

-----------------------------------------------------------------------------------------------
-- Paths
-----------------------------------------------------------------------------------------------

/-- In every session that a run leads to, computations have the names that they began with. -/
theorem Beginning.ownName?_of_waits (beginning : first.Beginning g)
    (calls : List (Call × Statistics)) (waits : (first.run calls).2.Waits m)
    : ∃ followed,
        Reaches g first m followed
        ∧ ∀ name, m.topology.graph.ownName? name = g.ownName? name := by
  have steady : Steady fun _ s =>
      ∃ followed,
        Reaches g first s followed
        ∧ ∀ name, s.topology.graph.ownName? name = g.ownName? name := by
    refine steady_of_kept
      (P := fun _ _ s => ∀ name, s.topology.graph.ownName? name = g.ownName? name)
      ?_ (fun names _ _ => names) id
    intro followed out s stats skip key source reached segment init last set inner reaches names
      done course pipeline whole name
    rw [topology_commit]
    exact (course.ownName? name).trans (names name)
  have ran := steady.run ⟨[], beginning.reaches, fun name => by rw [beginning.graph]⟩ calls
  exact @Steady.waits _ steady _ _ .empty ran waits

/-- The stages of a planned pipeline follow the graph from its source on. -/
theorem Reaches.itinerary (reaches : Reaches g first s followed)
    (names : ∀ name, s.topology.graph.ownName? name = g.ownName? name)
    (course : (s.view stats).Course source init last segment)
    (pipeline
      : (s.view stats).Pipeline next ((s.view stats).sourceDraft source set) source
          (init ++ [last]) inner)
    (whole : segment = inner.through source)
    : Itinerary g (s.node source).output (segment.stages.filterMap Stage.tupleSet?) := by
  have wired : Arena.Wired g (s.view stats).topology.arena := reaches.wired
  have ledger : (s.view stats).topology.arena.Ledger followed := reaches.ledger
  have made : segment.stages = inner.stages := by rw [whole]; rfl
  rw [made]
  exact pipeline.itinerary wired ledger names (along_sourceDraft g source set)
    (Arena.course_head_edge ledger course) rfl

/-- In every run the stages of a planned attempt follow the graph one behind the other, from the
tuple set of the source that was picked. They go by the names that computations call themselves,
and if these are filed under their own names, by the names that the atomics give.
-/
theorem itinerary_of_run {jobId : String} {config : PlannerConfig} {increment : Increment}
    {after : Session} (started : Session.start jobId g config = .ok first)
    (calls : List (Call × Statistics)) (waits : (first.run calls).2.Waits m)
    (picked : m.pick stats skip = some (key, source))
    (planned : m.attempt stats skip = (.planned increment, after))
    : Itinerary g (m.node source).output (increment.stages.filterMap Stage.tupleSet?)
      ∧ (g.Named →
          ∀ stage ∈ increment.stages.filterMap Stage.tupleSet?,
            ∃ a ∈ g.atomics,
              a.computation = stage.targetComputation ∧ stage.targetTupleSet ∈ a.inputs) := by
  obtain ⟨beginning, -⟩ := beginning_of_start started
  obtain ⟨followed, reaches, names⟩ := beginning.ownName?_of_waits calls waits
  obtain ⟨key', source', reached, segment, done, rfl, -⟩ := committed_of_attempt planned
  obtain ⟨-, rfl⟩ := Prod.mk.inj (Option.some.inj (picked.symm.trans done.picked))
  obtain ⟨init, last, set, inner, course, -, pipeline, whole⟩ := pipeline_of_analyze done.planned
  have itinerary := reaches.itinerary names course pipeline whole
  exact ⟨itinerary, fun named stage member =>
    (itinerary.follows stage member).exists_atomic named⟩

/-- The second pipeline splits the probing side of the join, and goes on with it to the join. -/
theorem everyKind_itinerary
    : ∃ first key source increment after,
        Session.start "job" everyKind .standard = .ok first
        ∧ (first.run [(.nextStages, costlySides)]).2.pick costlySides [] = some (key, source)
        ∧ (first.run [(.nextStages, costlySides)]).2.attempt costlySides []
          = (.planned increment, after)
        ∧ (increment.stages.filterMap Stage.tupleSet?).map TupleSetStage.tupleSets
          = [["r"], ["r", "both"]]
        ∧ Itinerary everyKind ((first.run [(.nextStages, costlySides)]).2.node source).output
            (increment.stages.filterMap Stage.tupleSet?)
        ∧ ∀ stage ∈ increment.stages.filterMap Stage.tupleSet?,
            ∃ a ∈ everyKind.atomics,
              a.computation = stage.targetComputation ∧ stage.targetTupleSet ∈ a.inputs := by
  have evaluated : (Session.start "job" everyKind .standard).toOption.any (fun first =>
      let m := (first.run [(.nextStages, costlySides)]).2
      (m.pick costlySides []).isSome
        && (m.attempt costlySides []).1.increment?.any fun increment =>
          (increment.stages.filterMap Stage.tupleSet?).map TupleSetStage.tupleSets
            == [["r"], ["r", "both"]]) = true := by
    decide +kernel
  obtain ⟨first, started, evaluated⟩ := Except.toOption_any_iff.mp evaluated
  simp only [Bool.and_eq_true, Option.any_eq_true, beq_iff_eq] at evaluated
  obtain ⟨picked, increment, planned, lists⟩ := evaluated
  obtain ⟨⟨key, source⟩, picked⟩ := Option.isSome_iff_exists.mp picked
  have outcome : (first.run [(.nextStages, costlySides)]).2.attempt costlySides []
      = (.planned increment, _) :=
    Prod.ext (Attempt.increment?_eq_some_iff.mp planned) rfl
  obtain ⟨itinerary, atomics⟩ := itinerary_of_run started _ .here picked outcome
  exact ⟨first, key, source, increment, _, started, picked, outcome, lists, itinerary,
    atomics (Graph.named_ofLists _ _)⟩

/-- The stage that reads `in` goes by the name that the computation calls itself, which is that of
no atomic.
-/
theorem renamedWrite_targetsNone
    : ∃ first key source increment after stage,
        Session.start "job" renamedWrite .standard = .ok first
        ∧ first.pick .empty [] = some (key, source)
        ∧ first.attempt .empty [] = (.planned increment, after)
        ∧ increment.stages.filterMap Stage.tupleSet? = [stage]
        ∧ stage.targetTupleSet = "in"
        ∧ stage.targetComputation = "writeX"
        ∧ ¬ ∃ a ∈ renamedWrite.atomics,
            a.computation = stage.targetComputation ∧ stage.targetTupleSet ∈ a.inputs := by
  have evaluated : (Session.start "job" renamedWrite .standard).toOption.any (fun first =>
      (first.pick .empty []).isSome
        && (first.attempt .empty []).1.increment?.any fun increment =>
          (increment.stages.filterMap Stage.tupleSet?).map
              (fun stage => (stage.targetTupleSet, stage.targetComputation))
            == [("in", "writeX")]) = true := by
    decide +kernel
  obtain ⟨first, started, evaluated⟩ := Except.toOption_any_iff.mp evaluated
  simp only [Bool.and_eq_true, Option.any_eq_true, beq_iff_eq] at evaluated
  obtain ⟨picked, increment, planned, targets⟩ := evaluated
  obtain ⟨⟨key, source⟩, picked⟩ := Option.isSome_iff_exists.mp picked
  have outcome : first.attempt .empty [] = (.planned increment, _) :=
    Prod.ext (Attempt.increment?_eq_some_iff.mp planned) rfl
  obtain ⟨stage, only, target⟩ := List.map_eq_singleton_iff.mp targets
  obtain ⟨read, own⟩ := Prod.mk.inj target
  refine ⟨first, key, source, increment, _, stage, started, picked, outcome, only, read, own, ?_⟩
  rw [read, own]
  decide

-----------------------------------------------------------------------------------------------
-- Targets
-----------------------------------------------------------------------------------------------

/-- Of a join that a pipeline comes to all readers wait. -/
theorem Reaches.allWait (reaches : Reaches g first s followed)
    (course : (s.view stats).Course source init last segment) {p : NodeId}
    (member : p ∈ init ++ [last])
    : (s.view stats).AllWait g p := by
  have wired : Arena.Wired g (s.view stats).topology.arena := reaches.wired
  have ledger : (s.view stats).topology.arena.Ledger followed := reaches.ledger
  intro started
  obtain ⟨q, edge, fresh⟩ := exists_fresh_edge wired ledger course member
  have inside := wired.has_consumer edge
  have join : ((s.view stats).topology.arena.node p).atomic.kind = .joinSets := by
    obtain ⟨strategy, hashSet, kind⟩ := PhysicalNode.isStarted_iff.mp started
    exact (wired.join_iff inside).mp ⟨_, kind⟩
  have perm := ledger.active_perm wired
    (ledger.not_reached wired edge fresh fun other => absurd join other)
  have attached := congrArg List.length (wired.attached p inside).consumers
  rw [List.length_map] at attached
  exact perm.length_eq.trans attached

/-- In every session that a run leads to, the stages so far are aimed as they should be. -/
theorem steady_aims (g : Graph) (first : Session)
    : Steady fun out s =>
        ∃ followed,
          Reaches g first s followed
          ∧ ∀ stage ∈ out.stages.filterMap Stage.tupleSet?, stage.Aims g := by
  refine steady_of_kept
    (P := fun _ out _ => ∀ stage ∈ out.stages.filterMap Stage.tupleSet?, stage.Aims g)
    ?_ (fun aims _ _ => aims) id
  intro followed out s stats skip key source reached segment init last set inner reaches aims done
    course pipeline whole stage member
  have wired : Arena.Wired g (s.view stats).topology.arena := reaches.wired
  have ledger : (s.view stats).topology.arena.Ledger followed := reaches.ledger
  rw [Increment.append, List.filterMap_append] at member
  rcases List.mem_append.mp member with old | new
  · exact aims stage old
  · have made : segment.stages = inner.stages := by rw [whole]; rfl
    refine pipeline.aims wired ledger (along_sourceDraft g source set) ?_
      (Arena.course_head_edge ledger course) (fun p onPath => reaches.allWait course onPath)
      stage (made ▸ new)
    intro probes
    simp [sourceDraft, TupleSetDraft.ofJob, Table.contains_eq_isSome] at probes

/-- In every run all stages are aimed at the last tuple sets that they build, but for those that
gather what a join makes for several readers: they are aimed at the tuple set before.
-/
theorem aims_of_run {jobId : String} {config : PlannerConfig}
    (started : Session.start jobId g config = .ok first) (calls : List (Call × Statistics))
    : ∀ stage ∈ (first.run calls).1.stages.filterMap Stage.tupleSet?, stage.Aims g := by
  obtain ⟨beginning, -⟩ := beginning_of_start started
  obtain ⟨_, -, aims⟩ :=
    (steady_aims g first).run ⟨[], beginning.reaches, by simp [Increment.empty]⟩ calls
  exact aims

/-- In all runs the stages are aimed at the last tuple sets that they build. -/
def AimsAtLast (first : Session) : Prop :=
  ∀ calls,
    ∀ stage ∈ (first.run calls).1.stages.filterMap Stage.tupleSet?,
      stage.tupleSets.getLast? = some stage.targetTupleSet

/-- A join whose output two writes read. -/
def writtenTwice : Graph :=
  .ofLists
    [.scan "scan_l" "db" "l", .scan "scan_r" "db" "r", .ofKind "join" .join,
      (Computation.ofKind "w1" .write).setOutput "db" "o1",
      (Computation.ofKind "w2" .write).setOutput "db" "o2"]
    [.scan "l" "scan_l", .scan "r" "scan_r", .join "j" "l" "r" "join", .apply "o1" "j" "w1",
      .apply "o2" "j" "w2"]

/-- The second pipeline builds the join's output, but is aimed at its own side of the join. -/
theorem writtenTwice_aimsBefore
    : ∃ first stage,
        Session.start "job" writtenTwice .standard = .ok first
        ∧ stage ∈ (first.run (List.replicate 2 (.planIncrement, .empty))).1.stages.filterMap
            Stage.tupleSet?
        ∧ stage.tupleSets = ["r", "j"]
        ∧ stage.targetTupleSet = "r"
        ∧ ¬ first.AimsAtLast := by
  have evaluated : ((Session.start "job" writtenTwice .standard).toOption.map fun first =>
      ((first.run (List.replicate 2 (.planIncrement, .empty))).1.stages.filterMap
        Stage.tupleSet?).any fun stage =>
          stage.tupleSets == ["r", "j"] && stage.targetTupleSet == "r") = some true := by
    decide +kernel
  obtain ⟨first, started, evaluated⟩ := Except.toOption_map_eq_some_iff.mp evaluated
  simp only [List.any_eq_true, Bool.and_eq_true, beq_iff_eq] at evaluated
  obtain ⟨stage, member, lists, target⟩ := evaluated
  refine ⟨first, stage, started, member, lists, target, fun claimed => ?_⟩
  have aimed := claimed _ stage member
  rw [lists, target] at aimed
  simp at aimed

theorem writtenTwice_aims
    : ∃ first,
        Session.start "job" writtenTwice .standard = .ok first
        ∧ ∀ calls,
            ∀ stage ∈ (first.run calls).1.stages.filterMap Stage.tupleSet?,
              stage.Aims writtenTwice := by
  have starts : (Session.start "job" writtenTwice .standard).isOk = true := by decide +kernel
  obtain ⟨first, started⟩ := Except.isOk_iff.mp starts
  exact ⟨first, started, aims_of_run started⟩

end DataflowPlan.Session
