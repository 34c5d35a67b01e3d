import Mathlib.Algebra.GroupWithZero.Nat
import DataflowPlan.Proofs.Scheduler.Rounds

/-! Progress and termination. The consumers that are left to plan are the measure: a planned
pipeline lowers their number, and a refusal leaves it. So increments, plans and runs are bounded by
it, and the loops that go on while a source is left go on only so long.
-/

namespace DataflowPlan

-----------------------------------------------------------------------------------------------
-- Edges
-----------------------------------------------------------------------------------------------

namespace Arena

/-- The edges from each node to its consumers. -/
def edges (arena : Arena) : List Edge :=
  arena.nodes.flatMap fun node => node.consumers.map (node.id, ·)

/-- As long as no pipeline has reached a consumer, there are as many to plan as there are edges. -/
theorem activeCount_eq_length_edges {arena : Arena}
    (whole : ∀ p, (arena.node p).active = (arena.node p).consumers)
    : arena.activeCount = arena.edges.length := by
  have count : ∀ nodes : List PhysicalNode, (∀ node ∈ nodes, node.active = node.consumers) →
      nodes.foldr (fun node total => node.active.length + total) 0
        = (nodes.flatMap fun node => node.consumers.map (node.id, ·)).length := by
    intro nodes each
    induction nodes with
    | nil => rfl
    | cons head rest ih =>
        have later := ih fun node member => each node (List.mem_cons_of_mem _ member)
        simp [each head, later]
  refine count arena.nodes fun node member => ?_
  obtain ⟨p, -, rfl⟩ := mem_nodes_iff.mp member
  exact whole p

theorem Frame.edges_eq {after before : Arena} (frame : after.Frame before)
    : after.edges = before.edges := by
  have ends : ∀ arena : Arena,
      arena.edges = (arena.nodes.map fun node => (node.id, node.consumers)).flatMap
        fun (id, consumers) => consumers.map (id, ·) :=
    fun arena => by rw [edges, List.flatMap_map]
  rw [ends, ends]
  refine congrArg (List.flatMap _) (List.ext_getElem ?_ ?_)
  · rw [List.length_map, List.length_map]
    exact frame.size
  · intro index below belowBefore
    have id := frame.id ⟨index⟩
    have consumers := frame.consumers ⟨index⟩
    simp only [List.length_map] at below belowBefore
    simp only [Arena.node, List.getElem?_eq_getElem below, List.getElem?_eq_getElem belowBefore,
      Option.getD_some] at id consumers
    simp [id, consumers]

end Arena

namespace Session

variable {s : Session} {stats : Statistics}

-----------------------------------------------------------------------------------------------
-- The attempts of an increment
-----------------------------------------------------------------------------------------------

/-- What an increment comes to, and the session that each of its attempts leaves, in order. -/
structure History where
  result : Except Error Increment × Session
  attempts : List Session

/-- One more attempt before the others. -/
def History.after (s : Session) (later : History) : History :=
  ⟨later.result, s :: later.attempts⟩

/-- Attempts until one succeeds, as they are retried, with every one of them kept. -/
def retryHistory (stats : Statistics)
    : (left refusals : Nat) → List String → Session → History
  | left, refusals, skip, s =>
    if !s.hasSources then ⟨(.ok .empty, s), []⟩
    else
      match s.attempt stats skip with
      | (.planned increment, s) => ⟨(.ok increment, s), [s]⟩
      | (.idle, s) => ⟨(.ok .empty, s), [s]⟩
      | (.failed error, s) => ⟨(.error error, s), [s]⟩
      | (.refused key, s) =>
        match left with
        | 0 => ⟨(.error (.stalled (refusals + 1) s.sources.keys), s), [s]⟩
        | left + 1 =>
          (retryHistory stats left (refusals + 1) (s.nextSkip (key :: skip)) s).after s

/-- The attempts of the next increment. -/
def history (s : Session) (stats : Statistics) : History :=
  retryHistory stats s.prune.budget 0 [] s.prune

/-- No session of the list has more consumers left to plan than the one before it. -/
def Descending (sessions : List Session) : Prop :=
  sessions.IsChain fun before after =>
    after.topology.arena.activeCount ≤ before.topology.arena.activeCount

/-- An attempt adds no consumers. -/
theorem activeCount_of_attempt {skip : List String} {attempt : Attempt} {next : Session}
    (outcome : s.attempt stats skip = (attempt, next))
    : next.topology.arena.activeCount ≤ s.topology.arena.activeCount := by
  cases attempt with
  | planned increment => exact Nat.le_of_lt (activeCount_of_planned outcome)
  | refused key =>
      obtain ⟨source, -, -, rfl⟩ := refused_of_attempt outcome
      exact activeCount_penalize s key source
  | idle =>
      obtain ⟨-, rfl⟩ := idle_of_attempt outcome
      exact Nat.le_refl _
  | failed error =>
      obtain rfl := failed_of_attempt outcome
      exact Nat.le_refl _

/-- The history belongs to retrying with so many refusals before the last attempt: it comes to the
same, the last attempt leaves the session that is left, and no attempt adds consumers.
-/
structure History.Tells (history : History) (s : Session) (left : Nat)
    (result : Except Error Increment × Session) : Prop where
  same : history.result = result
  last : history.attempts.getLastD s = result.2
  length : history.attempts.length ≤ 1 + left
  descending : Descending (s :: history.attempts)

/-- The history of one attempt alone. -/
theorem History.tells_one {left : Nat} {outcome : Except Error Increment} {next : Session}
    (fewer : next.topology.arena.activeCount ≤ s.topology.arena.activeCount)
    : History.Tells ⟨(outcome, next), [next]⟩ s left (outcome, next) :=
  ⟨rfl, rfl, by simp, List.isChain_pair.mpr fewer⟩

/-- Retrying makes the attempts of its history.
Witness: induction on the refusals that are left.
-/
theorem retryHistory_tells (left refusals : Nat) (skip : List String) (s : Session)
    : (retryHistory stats left refusals skip s).Tells s left
        (retry stats left refusals skip s) := by
  induction left generalizing refusals skip s with
  | zero =>
      rw [retry.eq_def, retryHistory.eq_def]
      dsimp only
      split
      · exact ⟨rfl, rfl, by simp, List.isChain_singleton _⟩
      · rcases outcome : s.attempt stats skip with ⟨attempt, next⟩
        have fewer := activeCount_of_attempt outcome
        cases attempt with
        | planned increment => exact History.tells_one fewer
        | refused key => exact History.tells_one fewer
        | idle => exact History.tells_one fewer
        | failed error => exact History.tells_one fewer
  | succ left ih =>
      rw [retry.eq_def, retryHistory.eq_def]
      dsimp only
      split
      · exact ⟨rfl, rfl, by simp, List.isChain_singleton _⟩
      · rcases outcome : s.attempt stats skip with ⟨attempt, next⟩
        have fewer := activeCount_of_attempt outcome
        cases attempt with
        | planned increment => exact History.tells_one fewer
        | refused key =>
            obtain ⟨same, last, length, descending⟩ :=
              ih (refusals + 1) (next.nextSkip (key :: skip)) next
            refine ⟨same, List.getLastD_cons.trans last, ?_, ?_⟩
            · simp only [History.after, List.length_cons]
              omega
            · exact List.isChain_cons_cons.mpr ⟨fewer, descending⟩
        | idle => exact History.tells_one fewer
        | failed error => exact History.tells_one fewer

/-- The consumers to plan of all live sources together. -/
def liveCount (s : Session) : Nat :=
  (s.liveSources.map fun source => (s.node source.2).active.length).sum

/-- As many attempts may be refused as the live sources have consumers. -/
theorem budget_prune (s : Session) : s.prune.budget = s.liveCount := by
  have live : s.prune.sources.values = s.liveSources.map Prod.snd := rfl
  rw [budget, live, List.foldr_map, liveCount, List.sum_eq_foldr, List.foldr_map]
  rfl

-----------------------------------------------------------------------------------------------
-- Planning to the end
-----------------------------------------------------------------------------------------------

/-- Planning all as long as some source is live, without any other bound: the plan so far, the
increments that succeed, and what it all comes to.
-/
inductive PlansAll (stats : Statistics)
    : Session → Plan → Nat → Except Error Plan × Session → Prop
  | done {s plan} (idle : s.hasSources = false) : PlansAll stats s plan 0 (.ok plan, s.prune)
  | failed {s plan error next} (live : s.hasSources = true)
    (fails : s.planIncrement stats = (.error error, next))
    : PlansAll stats s plan 0 (.error error, next)
  | more {s plan increment next count result} (live : s.hasSources = true)
    (planned : s.planIncrement stats = (.ok increment, next))
    (rest : PlansAll stats next (plan.extend increment) count result)
    : PlansAll stats s plan (count + 1) result

/-- Fuel for every consumer that is left to plan is as good as none.
Witness: induction on the fuel; each increment that succeeds lowers the consumers.
-/
theorem plansAll_planWithin {fuel : Nat} {plan : Plan}
    (enough : s.topology.arena.activeCount ≤ fuel)
    : ∃ count ≤ s.topology.arena.activeCount,
        PlansAll stats s plan count (planWithin stats fuel plan s) := by
  induction fuel generalizing plan s with
  | zero =>
      have idle := hasSources_of_activeCount (Nat.le_zero.mp enough)
      exact ⟨0, Nat.zero_le _, .done idle⟩
  | succ fuel ih =>
      rw [planWithin]
      cases live : s.hasSources with
      | false => exact ⟨0, Nat.zero_le _, .done live⟩
      | true =>
          rcases outcome : s.planIncrement stats with ⟨error | increment, next⟩
          · exact ⟨0, Nat.zero_le _, .failed live outcome⟩
          · have fewer := activeCount_of_planIncrement live outcome
            obtain ⟨count, below, rest⟩ :=
              @ih next (plan.extend increment) (by omega)
            exact ⟨count + 1, by omega, .more live outcome rest⟩

/-- In every session that a run leads to, the arena has the edges of the first one, and no more
consumers are left to plan.
-/
theorem steady_measured (first : Session)
    : Steady fun _ s =>
        s.topology.arena.edges = first.topology.arena.edges
        ∧ s.topology.arena.activeCount ≤ first.topology.arena.activeCount := by
  refine steady_of_commit ?_ ?_ fun holds => holds
  · rintro out s stats skip key source reached segment ⟨same, below⟩ done
    refine ⟨?_, (activeCount_of_attempt done.attempt).trans below⟩
    obtain ⟨init, last, course⟩ := done.course
    rw [topology_commit]
    exact course.frame.edges_eq.trans same
  · rintro out s ⟨same, below⟩ key source
    exact ⟨(Arena.frame_rotate _ source).edges_eq.trans same,
      (activeCount_penalize s key source).trans below⟩

end Session

-----------------------------------------------------------------------------------------------
-- Progress
-----------------------------------------------------------------------------------------------

/-- Planning goes on from the session as long as there is something to plan, and no longer. -/
structure Session.Progresses (s : Session) : Prop where
  /-- The attempts that are counted are those of the increment. -/
  history
    : ∀ stats,
        (s.history stats).result = s.planIncrement stats
        ∧ (s.history stats).attempts.getLastD s.prune = (s.planIncrement stats).2
  attempts : ∀ stats, (s.history stats).attempts.length ≤ 1 + s.liveCount
  empty
    : ∀ stats,
        (∃ increment,
            (s.planIncrement stats).1 = .ok increment ∧ increment.isEmpty = true)
          ↔ s.hasSources = false
  descending : ∀ stats, Session.Descending (s :: (s.history stats).attempts)
  lowers
    : ∀ stats increment next,
        s.planIncrement stats = (.ok increment, next) →
          increment.isEmpty = false →
            next.topology.arena.activeCount < s.topology.arena.activeCount
  planAll
    : ∀ stats,
        ∃ count ≤ s.topology.arena.edges.length,
          Session.PlansAll stats s (.ofJob s.jobId) count (s.planAll stats)
  /-- A round of a scheduler is carried out if it is planned. -/
  rounds
    : ∀ {σ : Type} (service : Service σ) cluster (e begun ready : Execution σ) increment fuel,
        e.session = s →
          s.hasSources = true →
            service.checkCancelled e = (.ok (), begun) →
              service.planNext cluster begun = (.ok increment, ready) →
                increment.isEmpty = false
                ∧ service.drive cluster (fuel + 1) e
                  = (service.carryOut cluster increment).andThen
                      (service.drive cluster fuel) ready

theorem Session.hasSources_of_empty {s : Session} {stats : Statistics} {increment : Increment}
    (planned : (s.planIncrement stats).1 = .ok increment) (empty : increment.isEmpty = true)
    : s.hasSources = false := by
  by_contra live
  have some := stages_ne_nil_of_planIncrement (by simpa using live) (Prod.ext planned rfl)
  exact some (by simpa [Increment.isEmpty] using empty)

/-- Planning goes on from every session that calls lead to: an increment makes at most one attempt
more than its sources have consumers, it is empty exactly if no source is live, and otherwise it
lowers the number of consumers. So planning all takes no more increments than there are edges, and
no run of a scheduler ends with a source left.
Witness: the consumers that are left to plan are the measure of each of the loops.
-/
theorem progresses_of_run {jobId : String} {g : Graph} {config : PlannerConfig}
    {first : Session} (started : Session.start jobId g config = .ok first)
    (calls : List (Session.Call × Statistics))
    : (first.run calls).2.Progresses := by
  obtain ⟨beginning, -⟩ := Session.beginning_of_start started
  obtain ⟨edges, below⟩ := (Session.steady_measured first).run ⟨rfl, Nat.le_refl _⟩ calls
  generalize (first.run calls).2 = s at edges below
  have tells : ∀ stats, (s.history stats).Tells s.prune s.liveCount (s.planIncrement stats) := by
    intro stats
    rw [← s.budget_prune]
    exact Session.retryHistory_tells _ _ _ _
  refine ⟨?_, ?_, ?_, ?_, ?_, ?_, ?_⟩
  · exact fun stats => ⟨(tells stats).same, (tells stats).last⟩
  · exact fun stats => (tells stats).length
  · intro stats
    constructor
    · rintro ⟨increment, planned, empty⟩
      exact Session.hasSources_of_empty planned empty
    · intro idle
      exact ⟨.empty, congrArg Prod.fst (Session.planIncrement_of_idle idle stats), rfl⟩
  · intro stats
    have chain : List.IsChain _ (s.prune :: (s.history stats).attempts) := (tells stats).descending
    refine List.IsChain.imp_head ?_ chain
    exact fun below => below
  · intro stats increment next planned some
    cases live : s.hasSources with
    | true => exact Session.activeCount_of_planIncrement live planned
    | false =>
        rw [Session.planIncrement_of_idle live] at planned
        obtain rfl := Except.ok.inj (Prod.mk.inj planned).1
        simp [Increment.isEmpty, Increment.empty] at some
  · intro stats
    obtain ⟨count, few, all⟩ : ∃ count ≤ s.topology.arena.activeCount,
        Session.PlansAll stats s (.ofJob s.jobId) count (s.planAll stats) :=
      Session.plansAll_planWithin (Nat.le_refl _)
    refine ⟨count, ?_, all⟩
    have whole := Arena.activeCount_eq_length_edges beginning.mirrors.active
    rw [edges, ← whole]
    exact few.trans below
  · intro σ service cluster e begun ready increment fuel here live checked planned
    subst here
    obtain ⟨some, -⟩ := service.planned_of_planNext live checked planned
    exact ⟨some, by simp [Service.drive, live, checked, planned, some]⟩

/-- After the first stages of `unnamedSink`, the next increment has two consumers at its sources. It
has the pipeline from `db:b` refused before the one from `db:c` is planned.
-/
theorem unnamedSink_progresses
    : ∃ first calls stats,
        Session.start "job" Session.unnamedSink .standard = .ok first
        ∧ (first.run calls).2.liveCount = 2
        ∧ ((first.run calls).2.history stats).attempts.length = 2
        ∧ ((first.run calls).2.planIncrement stats).1.toOption.map (·.stages.length) = some 2
        ∧ (first.run calls).2.Progresses := by
  let rest := Statistics.empty.setBytes "db" "c" 30000000000
  let calls : List (Session.Call × Statistics) := [(.nextStages, Session.splitStatistics)]
  have runs : ((Session.start "job" Session.unnamedSink .standard).toOption.map fun first =>
      ((first.run calls).2.liveCount, ((first.run calls).2.history rest).attempts.length,
        ((first.run calls).2.planIncrement rest).1.toOption.map (·.stages.length)))
      = some (2, 2, some 2) := by
    decide +kernel
  obtain ⟨first, outcome, runs⟩ := Except.toOption_map_eq_some_iff.mp runs
  simp only [Prod.mk.injEq] at runs
  obtain ⟨live, attempts, stages⟩ := runs
  exact ⟨first, calls, rest, outcome, live, attempts, stages, progresses_of_run outcome calls⟩

end DataflowPlan
