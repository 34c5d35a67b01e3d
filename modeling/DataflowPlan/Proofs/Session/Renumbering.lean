import DataflowPlan.Proofs.Analysis.Renumbering
import DataflowPlan.Proofs.Session.CompletePlan
import DataflowPlan.Proofs.Table

/-! Sessions whose arenas are numbered otherwise. All calls answer the same in both and leave such
sessions again, so that a plan depends on the graph alone: not on the order in which its atomics
were declared, as long as those that read a tuple set keep theirs.
-/

namespace DataflowPlan.Session

/-- The second session is the first one with its nodes at other places. -/
structure Moved (move : NodeId → NodeId) (s moved : Session) : Prop where
  jobId : moved.jobId = s.jobId
  config : moved.config = s.config
  topology : s.topology.Moved move moved.topology
  sources : moved.sources = s.sources.mapValues move
  penalized : moved.penalized = s.penalized
  nextStage : moved.nextStage = s.nextStage

/-- What a call comes to is the same, and so are the sessions after it but for the places of nodes.
-/
def MovedResult {α : Type} (move : NodeId → NodeId) (here there : α × Session) : Prop :=
  there.1 = here.1 ∧ here.2.Moved move there.2

variable {move : NodeId → NodeId} {s moved : Session} {stats : Statistics} {skip : List String}

namespace Moved

variable (moves : s.Moved move moved)

include moves

theorem node (p : NodeId) : (s.node p).Moved move (moved.node (move p)) :=
  moves.topology.arena.node p

theorem view (stats : Statistics) : (s.view stats).Moved move (moved.view stats) :=
  ⟨moves.jobId, moves.config, rfl, moves.topology⟩

theorem isLive (p : NodeId) : moved.isLive (move p) = s.isLive p :=
  (moves.node p).hasConsumers

theorem liveSources : moved.liveSources = s.liveSources.map (Prod.map id move) := by
  rw [Session.liveSources, Session.liveSources, moves.sources, Table.mapValues, List.filter_map]
  refine congrArg (List.map _) (List.filter_congr fun source _ => ?_)
  exact moves.isLive source.2

theorem liveKeys : moved.liveKeys = s.liveKeys := by
  rw [Session.liveKeys, Session.liveKeys, moves.liveSources, List.map_map]
  rfl

theorem values : moved.sources.values = s.sources.values.map move := by
  rw [moves.sources, Table.values, Table.values, Table.mapValues, List.map_map, List.map_map]
  rfl

theorem keys : moved.sources.keys = s.sources.keys := by
  rw [moves.sources, Table.keys, Table.keys, Table.mapValues, List.map_map]
  rfl

theorem hasSources : moved.hasSources = s.hasSources := by
  rw [Session.hasSources, Session.hasSources, moves.values, List.any_map]
  exact List.any_congr rfl moves.isLive

theorem budget : moved.budget = s.budget := by
  rw [Session.budget, Session.budget, moves.values, List.foldr_map]
  simp only [(moves.node _).active, List.length_map]

theorem nextSkip (refused : List String) : moved.nextSkip refused = s.nextSkip refused := by
  rw [Session.nextSkip, Session.nextSkip, moves.liveKeys]

theorem rank (stats : Statistics) (skip : List String) (key : String) (p : NodeId)
    : moved.rank stats skip key (move p) = s.rank stats skip key p := by
  rw [Session.rank, Session.rank, Session.rankingCost, Session.rankingCost, (moves.node p).cost,
    moves.penalized, moves.config]

/-- The same source is picked, wherever its node stands. -/
theorem pick (stats : Statistics) (skip : List String)
    : moved.pick stats skip = (s.pick stats skip).map (Prod.map id move) := by
  have better : ∀ best source,
      moved.better stats skip (best.map (Prod.map id move)) (Prod.map id move source)
        = (s.better stats skip best source).map (Prod.map id move) := by
    intro best source
    cases best with
    | none => rfl
    | some earlier =>
        simp only [Session.better, Option.map_some, Prod.map, id, moves.rank]
        split <;> rfl
  have folded : ∀ (sources : List (String × NodeId)) best,
      (sources.map (Prod.map id move)).foldl (moved.better stats skip)
          (best.map (Prod.map id move))
        = (sources.foldl (s.better stats skip) best).map (Prod.map id move) := by
    intro sources
    induction sources with
    | nil => exact fun _ => rfl
    | cons source rest ih =>
        intro best
        rw [List.map_cons, List.foldl_cons, List.foldl_cons, better, ih]
  rw [Session.pick, Session.pick, moves.liveSources]
  exact folded s.liveSources none

-----------------------------------------------------------------------------------------------
-- Changes
-----------------------------------------------------------------------------------------------

theorem prune : s.prune.Moved move moved.prune := by
  refine ⟨moves.jobId, moves.config, moves.topology, ?_, moves.penalized, moves.nextStage⟩
  rw [Session.prune, Session.prune, moves.sources]
  exact (Table.mapValues_filter move s.sources fun _ p => moves.isLive p).symm

theorem penalize (key : String) (source : NodeId)
    : (s.penalize key source).Moved move (moved.penalize key (move source)) :=
  ⟨moves.jobId, moves.config, moves.topology.rotate source, moves.sources,
    congrArg (KeySet.add · key) moves.penalized, moves.nextStage⟩

theorem register (segment : Segment)
    : (s.register segment).Moved move (moved.register (segment.moved move)) := by
  rw [Session.register, Session.register, Segment.moved]
  cases segment.newSource with
  | none => exact moves
  | some source =>
      refine ⟨moves.jobId, moves.config, moves.topology, ?_, moves.penalized, moves.nextStage⟩
      simp only [Option.map_some, Prod.map, id, moves.sources, Table.mapValues_insert]

theorem dropIfExhausted (key : String) (source : NodeId)
    : (s.dropIfExhausted key source).Moved move (moved.dropIfExhausted key (move source)) := by
  rw [Session.dropIfExhausted, Session.dropIfExhausted, moves.isLive]
  split
  · exact moves
  · refine ⟨moves.jobId, moves.config, moves.topology, ?_, moves.penalized, moves.nextStage⟩
    simp only [moves.sources, Table.mapValues_erase]

theorem commit (key : String) (source : NodeId) (reached : StageId) (segment : Segment)
    : (s.commit key source reached segment).Moved move
        (moved.commit key (move source) reached (segment.moved move)) := by
  have planned : Moved move { s with topology := segment.apply s.topology, nextStage := reached }
      { moved with
        topology := (segment.moved move).apply moved.topology
        nextStage := reached } :=
    ⟨moves.jobId, moves.config, moves.topology.apply_segment segment, moves.sources,
      moves.penalized, rfl⟩
  exact (planned.register segment).dropIfExhausted key source

-----------------------------------------------------------------------------------------------
-- Calls
-----------------------------------------------------------------------------------------------

theorem attempt (stats : Statistics) (skip : List String)
    : MovedResult move (s.attempt stats skip) (moved.attempt stats skip) := by
  rw [Session.attempt, Session.attempt, moves.pick]
  cases s.pick stats skip with
  | none => exact ⟨rfl, moves⟩
  | some choice =>
      obtain ⟨key, source⟩ := choice
      simp only [Option.map_some, Prod.map, id, (moves.view stats).analyze, moves.nextStage,
        Analysis.moved]
      cases ((s.view stats).analyze source s.nextStage).verdict with
      | planned segment => exact ⟨rfl, moves.commit key source _ segment⟩
      | refused => exact ⟨rfl, moves.penalize key source⟩
      | failed error => exact ⟨rfl, moves⟩

/-- Attempts in turn come to the same.
Witness: induction on the refusals that are left.
-/
theorem retry (stats : Statistics) (left refusals : Nat) (skip : List String)
    : MovedResult move (Session.retry stats left refusals skip s)
        (Session.retry stats left refusals skip moved) := by
  induction left using Nat.strong_induction_on generalizing refusals skip s moved with
  | _ left ih =>
      have alike := moves.attempt stats skip
      rw [Session.retry.eq_def, Session.retry.eq_def]
      dsimp only
      rw [moves.hasSources]
      split
      · exact ⟨rfl, moves⟩
      · generalize s.attempt stats skip = here at alike
        generalize moved.attempt stats skip = there at alike
        obtain ⟨⟨outcome, next⟩, ⟨outcome', next'⟩⟩ := here, there
        obtain ⟨rfl, after⟩ : outcome' = outcome ∧ next.Moved move next' := alike
        cases outcome' with
        | planned | idle | failed => exact ⟨rfl, after⟩
        | refused key =>
            cases left with
            | zero =>
                dsimp only
                rw [after.keys]
                exact ⟨rfl, after⟩
            | succ left =>
                dsimp only
                rw [after.nextSkip]
                exact ih left (Nat.lt_succ_self left) after _ _

theorem planIncrement (stats : Statistics)
    : MovedResult move (s.planIncrement stats) (moved.planIncrement stats) := by
  rw [Session.planIncrement, Session.planIncrement, moves.prune.budget]
  exact moves.prune.retry stats s.prune.budget 0 []

/-- Increments in turn come to the same plan, or to the same error.
Witness: induction on how many may still follow.
-/
theorem planWithin (stats : Statistics) (fuel : Nat) (plan : Plan)
    : MovedResult move (Session.planWithin stats fuel plan s)
        (Session.planWithin stats fuel plan moved) := by
  induction fuel generalizing plan s moved with
  | zero => exact ⟨rfl, moves.prune⟩
  | succ fuel ih =>
      have alike := moves.planIncrement stats
      rw [Session.planWithin, Session.planWithin, moves.hasSources]
      split
      · exact ⟨rfl, moves.prune⟩
      · generalize s.planIncrement stats = here at alike
        generalize moved.planIncrement stats = there at alike
        obtain ⟨⟨outcome, next⟩, ⟨outcome', next'⟩⟩ := here, there
        obtain ⟨rfl, after⟩ : outcome' = outcome ∧ next.Moved move next' := alike
        cases outcome' with
        | ok increment => exact ih after (plan.extend increment)
        | error error => exact ⟨rfl, after⟩

end Moved

-----------------------------------------------------------------------------------------------
-- New sessions
-----------------------------------------------------------------------------------------------

/-- No source of a new session was refused. -/
theorem penalized_of_start {jobId : String} {g : Graph} {config : PlannerConfig} {s : Session}
    (started : Session.start jobId g config = .ok s)
    : s.penalized = ∅ := by
  simp only [Session.start, Except.bind_eq_ok, Except.pure_eq, Except.ok.injEq] at started
  obtain ⟨-, -, -, -, -, -, rfl⟩ := started
  rfl

/-- New sessions for graphs that differ in the order of their atomics differ in the places of nodes.
-/
theorem moved_of_start {jobId : String} {g h : Graph} {config : PlannerConfig}
    (reordered : g.Reordered h) (started : Session.start jobId g config = .ok s)
    (started' : Session.start jobId h config = .ok moved)
    : ∃ move, s.Moved move moved := by
  obtain ⟨beginning, job, settings, zero⟩ := beginning_of_start started
  obtain ⟨beginning', job', settings', zero'⟩ := beginning_of_start started'
  obtain ⟨move, arena, onto⟩ := beginning.mirrors.exists_moved beginning'.mirrors reordered
  refine ⟨move, job'.trans job.symm, settings'.trans settings.symm, ?_, ?_, ?_,
    zero'.trans zero.symm⟩
  · exact ⟨by rw [beginning.graph, beginning'.graph, reordered.computations], arena⟩
  · refine Table.ext_get? fun key => Option.ext fun q => ?_
    rw [beginning'.registered, Table.get?_mapValues, Option.map_eq_some_iff]
    constructor
    · rintro ⟨set, isSource, named⟩
      obtain ⟨p, rfl⟩ := onto q (has_of_source isSource)
      have same : (s.node p).sourceSet = some set := (arena.node p).sourceSet.symm.trans isSource
      exact ⟨p, (beginning.registered key p).mpr ⟨set, same, named⟩, rfl⟩
    · rintro ⟨p, registered, rfl⟩
      obtain ⟨set, isSource, named⟩ := (beginning.registered key p).mp registered
      exact ⟨set, (arena.node p).sourceSet.trans isSource, named⟩
  · rw [penalized_of_start started, penalized_of_start started']

/-- A plan depends on the computations and on the consumers of each tuple set, not on the order in
which the atomics are declared.
-/
theorem planAll_reordered {jobId : String} {g h : Graph} {config : PlannerConfig}
    {first first' : Session} (reordered : g.Reordered h)
    (started : Session.start jobId g config = .ok first)
    (started' : Session.start jobId h config = .ok first') (stats : Statistics)
    : (first'.planAll stats).1 = (first.planAll stats).1 := by
  obtain ⟨move, moves⟩ := moved_of_start reordered started started'
  have fuel : first'.topology.arena.activeCount = first.topology.arena.activeCount := by
    rw [(beginning_of_start started).1.mirrors.activeCount_eq,
      (beginning_of_start started').1.mirrors.activeCount_eq]
    simp only [reordered.consumers]
    exact (reordered.atomics.map _).sum_nat
  rw [planAll, planAll, fuel, moves.jobId]
  exact (moves.planWithin stats _ _).1

/-- The job with an atomic of each kind, most of its steps declared before what they read. -/
def everyKindReordered : Graph :=
  .ofLists
    [.scan "scan_l" "db" "left", .scan "scan_r" "db" "right", .ofKind "join" .join,
      .ofKind "clean" .selection, .ofKind "sum" .aggregation, .ofKind "spread" .partition,
      (Computation.ofKind "write_all" .write).setOutput "db" "all",
      (Computation.ofKind "write_sums" .write).setOutput "db" "sums",
      (Computation.ofKind "write_parts" .write).setOutput "db" "parts"]
    [.apply "out_sums" "sums" "write_sums", .aggregate "sums" "cleaned" "sum",
      .apply "out_parts" "parts" "write_parts", .partition "parts" "cleaned" "spread",
      .scan "r" "scan_r", .apply "cleaned" "both" "clean", .scan "l" "scan_l",
      .apply "out_all" "both" "write_all", .join "both" "l" "r" "join"]

theorem everyKind_reordered : everyKind.Reordered everyKindReordered :=
  Graph.reordered_of_inputs rfl (by decide) (by decide)

theorem everyKind_planAll_reordered
    : ∃ first first' plan,
        Session.start "job" everyKind .standard = .ok first
        ∧ Session.start "job" everyKindReordered .standard = .ok first'
        ∧ (first.planAll .empty).1 = .ok plan
        ∧ (first'.planAll .empty).1 = .ok plan := by
  have plans : (planJob "job" everyKind .standard .empty).isOk = true := by decide +kernel
  have starts : (Session.start "job" everyKindReordered .standard).isOk = true := by
    decide +kernel
  obtain ⟨plan, outcome⟩ := Except.isOk_iff.mp plans
  obtain ⟨first', other⟩ := Except.isOk_iff.mp starts
  obtain ⟨first, next, started, planned⟩ := planJob_eq_ok outcome
  have same : (first.planAll .empty).1 = .ok plan := congrArg Prod.fst planned
  exact ⟨first, first', plan, started, other, same,
    (planAll_reordered everyKind_reordered started other .empty).trans same⟩

end DataflowPlan.Session
