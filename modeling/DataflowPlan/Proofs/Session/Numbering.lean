import DataflowPlan.Proofs.Session.Completion
import DataflowPlan.Proofs.Session.Descent

/-! The numbers of stages. Each pipeline numbers its stages on from where the last one ended, and a
refused or failed attempt takes no number, so that the stages of a run are numbered without gaps.
-/

namespace DataflowPlan

/-- The segment has stages, numbered one after the other from `next` on. -/
structure Segment.Numbered (segment : Segment) (next : StageId) : Prop where
  some : segment.stages ≠ []
  ids
    : segment.stages.map Stage.id
      = (List.range' next.number segment.stages.length).map StageId.mk

namespace View

variable {v : View} {next : StageId} {draft : TupleSetDraft} {prev id : NodeId}
  {segment : Segment}

theorem id_of_finished {d : TupleSetDraft} {stage : TupleSetStage} (finished : d.Finished stage)
    (numbered : d.stageId = some next)
    : stage.id = next :=
  Option.some.inj (finished.id.symm.trans numbered)

theorem numbered_one {stage : TupleSetStage} (number : stage.id = next) {sets : List SetId}
    {newSource : Option (NodeId × SetId)} {changes : List Change}
    : Segment.Numbered ⟨[.tupleSet stage], sets, newSource, changes⟩ next :=
  ⟨by simp, by simp [Stage.id, number]⟩

theorem numbered_two {stage : TupleSetStage} {last : Stage} (number : stage.id = next)
    (follows : last.id = next.next) {sets : List SetId} {newSource : Option (NodeId × SetId)}
    {changes : List Change}
    : Segment.Numbered ⟨[.tupleSet stage, last], sets, newSource, changes⟩ next :=
  ⟨by simp, by simp [Stage.id.eq_1, number, follows, StageId.next, List.range']⟩

theorem materialize_numbered (made : v.materialize next draft prev id = .ok segment)
    : segment.Numbered next := by
  obtain ⟨c, place, stage, -, -, finished, rfl⟩ := materialize_eq_ok made
  exact numbered_one (id_of_finished finished rfl)

theorem Ends.numbered (ending : v.Ends next draft prev id segment)
    : segment.Numbered next := by
  cases ending with
  | output kind unread made =>
      obtain ⟨c, sink, stage, -, -, finished, rfl⟩ := output_eq_ok made
      exact numbered_one (id_of_finished finished rfl)
  | materialize kind shared made => exact materialize_numbered made
  | aggregate kind made =>
      obtain ⟨c, place, materialized, shuffle, merge, -, -, finished, rfl, rfl⟩ :=
        aggregate_eq_ok made
      exact numbered_two (id_of_finished finished rfl) rfl
  | partition kind made =>
      obtain ⟨c, place, stage, -, -, finished, rfl⟩ := partition_eq_ok made
      exact numbered_one (id_of_finished finished rfl)
  | build kind read accepted made =>
      obtain ⟨c, stage, -, finished, rfl⟩ := joinBuild_eq_ok made
      refine numbered_two (id_of_finished finished ?_) ?_
      · unfold buildDraft
        cases v.strategyFor draft <;> rfl
      · unfold buildStage
        cases v.strategyFor draft <;> rfl

/-- What a crossing leaves is numbered before what comes after it. -/
theorem Numbered.across {strategy : JoinStrategy} {hashSet : String} {c : Crossing}
    (crossed : v.crossing next draft prev id strategy hashSet = .ok c)
    (numbered : segment.Numbered c.next)
    : (segment.across c).Numbered next := by
  obtain ⟨some, ids⟩ := numbered
  refine ⟨by simp [Segment.across, some], ?_⟩
  cases crosses_of_crossing crossed with
  | broadcast => exact ids
  | @split c closed found finished sink splits =>
      have number : closed.id = next := id_of_finished finished rfl
      simp only [Segment.across, List.singleton_append, List.map_cons, List.length_cons, ids,
        Stage.id, number, StageId.next, List.range'_succ]

/-- The stages of a pipeline are numbered without gaps.
Witness: induction on the pipeline, whose crossings leave a stage each or none.
-/
theorem Pipeline.numbered {path : List NodeId} (pipeline : v.Pipeline next draft prev path segment)
    : segment.Numbered next := by
  induction pipeline with
  | ends ending => exact ending.numbered
  | pass kind active rest ih => exact ⟨ih.some, ih.ids⟩
  | cross started crossed active rest ih => exact Numbered.across crossed ih
  | gather started crossed shared made => exact Numbered.across crossed (materialize_numbered made)

end View

namespace Session

variable {s : Session} {out : Increment} {stats : Statistics} {skip : List String}

/-- The stages so far are numbered from the first identifier to the one before the next. -/
structure Counted (out : Increment) (s : Session) : Prop where
  next : s.nextStage = ⟨out.stages.length⟩
  ids : out.stages.map Stage.id = (List.range out.stages.length).map StageId.mk

theorem Committed.numbered {key : String} {source : NodeId} {reached : StageId} {segment : Segment}
    (done : s.Committed stats skip key source reached segment)
    : segment.Numbered s.nextStage ∧ reached = s.nextStage.skip segment.stages.length := by
  obtain ⟨set, consumer, others, path, inner, -, -, pipeline, rfl, rfl⟩ :=
    View.analyze_planned done.planned
  exact ⟨⟨pipeline.numbered.some, pipeline.numbered.ids⟩, rfl⟩

theorem Counted.commit (counted : Counted out s) {key : String} {source : NodeId}
    {reached : StageId} {segment : Segment}
    (done : s.Committed stats skip key source reached segment)
    : Counted (out.append ⟨segment.stages, segment.intermediateSets⟩)
        (s.commit key source reached segment) := by
  obtain ⟨numbered, rfl⟩ := done.numbered
  refine ⟨?_, ?_⟩
  · rw [nextStage_commit, counted.next]
    simp [StageId.skip, Increment.append]
  · have ids := numbered.ids
    have whole := @List.range'_append_1 0 out.stages.length segment.stages.length
    rw [Nat.zero_add] at whole
    rw [counted.next] at ids
    simp only [Increment.append, List.map_append, List.length_append, counted.ids, ids,
      List.range_eq_range']
    rw [← List.map_append, whole]

/-- In every session that a run leads to, the stages so far are numbered without gaps. -/
theorem steady_counted : Steady Counted :=
  steady_of_commit (fun counted done => counted.commit done)
    (fun counted _ _ => ⟨counted.next, counted.ids⟩)
    (fun counted => ⟨counted.next, counted.ids⟩)

/-- The stages that calls on a new session emit are numbered from zero on without gaps, and the next
number follows the last one. Calls that are refused or fail take no number.
Witness: a pipeline emits every number that its analysis takes, in order, and an attempt that plans
nothing leaves the next number as it was.
-/
theorem counted_of_run {jobId : String} {g : Graph} {config : PlannerConfig} {first : Session}
    (started : Session.start jobId g config = .ok first) (calls : List (Call × Statistics))
    : Counted (first.run calls).1 (first.run calls).2 := by
  obtain ⟨-, -, -, zero⟩ := beginning_of_start started
  exact steady_counted.run ⟨zero, rfl⟩ calls

/-- Two sets are joined, and what comes out with a third one, for a writer that names no set. -/
def unnamedSink : Graph :=
  .ofLists
    [.scan "scan_a" "db" "a", .scan "scan_b" "db" "b", .scan "scan_c" "db" "c",
      .ofKind "join" .join, .ofKind "write" .write]
    [.scan "a" "scan_a", .scan "b" "scan_b", .scan "c" "scan_c", .join "ab" "a" "b" "join",
      .join "abc" "ab" "c" "join", .apply "out" "abc" "write"]

/-- The set `db:a` is the cheapest one, and costly enough to be split by key. -/
def splitStatistics : Statistics :=
  ((Statistics.empty.setBytes "db" "a" 20000000000).setBytes "db" "b" 30000000000).setBytes
    "db" "c" 30000000000

/-- The pipeline from `db:b` splits its side of the first join and is refused at the second one, and
when it gets past that one it fails. Both times the number of the split is given back.
-/
theorem unnamedSink_counted
    : ∃ first calls,
        Session.start "job" unnamedSink .standard = .ok first
        ∧ (first.run (calls.take 2)).2.penalized.contains "db:b" = true
        ∧ ((first.run calls).2.planIncrement .empty).1
          = .error (.unsupportedSink "write" .write)
        ∧ (first.run calls).1.stages.length = 4
        ∧ Counted (first.run calls).1 (first.run calls).2 := by
  let rest := Statistics.empty.setBytes "db" "c" 30000000000
  let calls : List (Call × Statistics) :=
    [(.nextStages, splitStatistics), (.nextStages, rest), (.planIncrement, rest),
      (.nextStages, rest)]
  have runs : ((Session.start "job" unnamedSink .standard).toOption.map fun first =>
      ((first.run (calls.take 2)).2.penalized.contains "db:b",
        ((first.run calls).2.planIncrement .empty).1, (first.run calls).1.stages.length))
      = some (true, .error (.unsupportedSink "write" .write), 4) := by
    decide +kernel
  obtain ⟨first, outcome, runs⟩ := Except.toOption_map_eq_some_iff.mp runs
  simp only [Prod.mk.injEq] at runs
  obtain ⟨penalized, fails, length⟩ := runs
  exact ⟨first, calls, outcome, penalized, fails, length, counted_of_run outcome calls⟩

/-- An increment is planned with some stages, as long as a source is left. -/
theorem stages_ne_nil_of_planIncrement {increment : Increment} {next : Session}
    (live : s.hasSources = true) (planned : s.planIncrement stats = (.ok increment, next))
    : increment.stages ≠ [] := by
  have ends := s.planIncrement_comesTo stats
  rw [planned] at ends
  cases ends with
  | idle tries none =>
      have still := tries.unplanned.2
      rw [hasSources_prune, live, none] at still
      simp at still
  | planned tries planned =>
      obtain ⟨key, source, reached, segment, done, rfl, -⟩ := committed_of_attempt planned
      exact done.numbered.1.some

end Session

end DataflowPlan
