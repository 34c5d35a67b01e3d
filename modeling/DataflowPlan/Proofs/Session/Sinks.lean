import DataflowPlan.Proofs.Session.Redirections

/-! Where the output of a job goes. The sink of a pipeline is decided by the submitted graph, but
for computations that were redirected before: these take the output of other atomics along.
-/

namespace DataflowPlan.Session

variable {g : Graph} {first s m : Session} {followed : List Arena.Edge} {stats : Statistics}
  {skip : List String} {key : String} {source last : NodeId} {calls : List (Call × Statistics)}

/-- The next attempt plans a pipeline that ends in the set, which is declared if it is one of the
job's; without a set it fails, as the computation is no sink.
-/
inductive EndsIn (s : Session) (stats : Statistics) (skip : List String) (c : Computation)
    : Option SetId → Prop
  | sink {increment next sink} (planned : s.attempt stats skip = (.planned increment, next))
    (final : finalSink? increment.stages = some sink)
    (declares : sink.kind = .intermediate → sink ∈ increment.intermediateSets)
    : s.EndsIn stats skip c (some sink)
  | unsupported (failed : s.attempt stats skip = (.failed (.unsupportedSink c.name c.kind), s))
    : s.EndsIn stats skip c none

/-- The attempt ends where the analysis of the source that is picked puts its output. -/
theorem endsIn_of_puts {c : Computation} {sink? : Option SetId}
    {result : Except Error Placement} (picked : s.pick stats skip = some (key, source))
    (puts : ((s.view stats).analyze source s.nextStage).verdict.Puts result)
    (placed : c.PlacedIn sink? result)
    : s.EndsIn stats skip c sink? := by
  cases analysis : (s.view stats).analyze source s.nextStage with
  | mk reached verdict =>
      rw [analysis] at puts
      cases placed with
      | sink here declares =>
          cases puts with
          | @placed place segment planned final sets =>
              have done : s.attempt stats skip
                  = (.planned ⟨segment.stages, segment.intermediateSets⟩,
                      s.commit key source reached segment) := by
                simp only [attempt, picked, analysis, planned]
              exact .sink done (here ▸ final) fun kind => sets (declares kind)
      | unsupported =>
          cases puts with
          | failed failed => exact .unsupported (by simp only [attempt, picked, analysis, failed])

/-- A planned pipeline stops at some node, or builds a join there. -/
theorem exists_end {increment : Increment} {next : Session}
    (picked : s.pick stats skip = some (key, source))
    (planned : s.attempt stats skip = (.planned increment, next))
    : ∃ last,
        (∃ here draft prev, (s.view stats).Comes source s.nextStage here draft prev last)
        ∧ ((s.view stats).stops last = true ∨ (s.node last).kind = .join .notStarted) := by
  obtain ⟨key', source', reached, segment, done, -, -⟩ := committed_of_attempt planned
  obtain ⟨-, rfl⟩ := Prod.mk.inj (Option.some.inj (picked.symm.trans done.picked))
  obtain ⟨init, last, set, inner, course, isSource, pipeline, -⟩ :=
    View.pipeline_of_analyze done.planned
  obtain ⟨c, others, active, head⟩ := course.first
  refine ⟨last, pipeline.comes rfl fun id atHead => ?_⟩
  obtain rfl := Option.some.inj (head.symm.trans atHead)
  exact .start isSource active

/-- Where a pipeline stops, the attempt ends in the set that the computation says, or one that says
the same.
-/
theorem StepsKept.endsIn (kept : m.StepsKept) (reaches : ReachesNamed g first m followed)
    (picked : m.pick stats skip = some (key, source))
    (stopsAt : (m.view stats).StopsAt source m.nextStage last) {c d : Computation}
    (found : (m.view stats).computation last = .ok c) (like : c.Like d) (name : c.name = d.name)
    (kind : c.kind = d.kind)
    : m.EndsIn stats skip d
        (g.sink? first.jobId first.config.pageSize (m.node last).atomic d) := by
  have wired : Arena.Wired g (m.view stats).topology.arena := reaches.wired
  have ledger : (m.view stats).topology.arena.Ledger followed := reaches.ledger
  have job : (m.view stats).jobId = first.jobId := reaches.descends.jobId
  have config : (m.view stats).config = first.config := reaches.descends.config
  have awaited := kept.awaited reaches stopsAt found
  have puts := stopsAt.puts wired ledger found
  obtain ⟨⟨next, draft, prev, comes⟩, stops⟩ := stopsAt
  have inside := wired.has_consumer (comes.fresh wired ledger).1
  have placed := awaited.placedIn reaches.named found wired inside stops
  rw [Graph.sink?_congr _ _ _ _ like, job, config] at placed
  exact endsIn_of_puts picked puts (placed.congr name kind)

/-- The computation of a node where a pipeline stops is one of the graph's, with its name and kind.
-/
theorem ReachesNamed.exists_given (reaches : ReachesNamed g first m followed)
    (graph : first.topology.graph = g)
    (stopsAt : (m.view stats).StopsAt source m.nextStage last)
    : ∃ given c,
        g.computation (m.node last).atomic.computation = .ok given
        ∧ (m.view stats).computation last = .ok c
        ∧ c.name = given.name
        ∧ c.kind = given.kind := by
  obtain ⟨⟨next, draft, prev, comes⟩, -⟩ := stopsAt
  have wired : Arena.Wired g (m.view stats).topology.arena := reaches.wired
  have inside := wired.has_consumer (comes.fresh wired reaches.ledger).1
  obtain ⟨given, found⟩ := wired.valid.known _ (wired.known last inside)
  obtain ⟨c, there, derived⟩ := reaches.kept.exists_derived (graph ▸ found)
  exact ⟨given, c, found, there, derived.name, derived.kind⟩

theorem Beginning.stepsKept_of_waits (beginning : first.Beginning g) (named : g.Named)
    (calls : List (Call × Statistics)) (waits : (first.run calls).2.Waits m)
    : ∃ followed, ReachesNamed g first m followed ∧ m.StepsKept := by
  have steady := steady_stepsKept g first
  have ran := steady.run
    ⟨[], beginning.reachesNamed named, beginning.keyed, beginning.stepsKept⟩ calls
  obtain ⟨followed, reaches, -, kept⟩ := @Steady.waits _ steady _ _ .empty ran waits
  exact ⟨followed, reaches, kept⟩

/-- Where a pipeline stops, the attempt ends in the set that the computation says, as it was
submitted or redirected by the run.
-/
theorem Beginning.endsIn (beginning : first.Beginning g) (named : g.Named)
    (waits : (first.run calls).2.Waits m) (picked : m.pick stats skip = some (key, source))
    (stopsAt : (m.view stats).StopsAt source m.nextStage last)
    : ∃ given,
        g.computation (m.node last).atomic.computation = .ok given
        ∧ ∀ c,
            first.DirectedBy calls given c →
              m.EndsIn stats skip c
                (g.sink? first.jobId first.config.pageSize (m.node last).atomic c) := by
  obtain ⟨followed, reaches, kept⟩ := beginning.stepsKept_of_waits named calls waits
  obtain ⟨given, c, found, there, name, kind⟩ := reaches.exists_given beginning.graph stopsAt
  refine ⟨given, found, fun d directs => ?_⟩
  obtain ⟨e, here, like⟩ := (beginning.directed named calls).waits waits _ given d found directs
  obtain rfl := Except.ok.inj (there.symm.trans here)
  have same : given.name = d.name ∧ given.kind = d.kind := by
    cases directs <;> exact ⟨rfl, rfl⟩
  exact kept.endsIn reaches picked stopsAt there like (name.trans same.1) (kind.trans same.2)

/-- Where the attempts end from a session that a run leads to. At every node where the pipeline of
the picked source stops, that is the set that the atomic's computation says, as it was submitted or
redirected by the run; and every planned pipeline stops at some node, or builds a join there.
-/
structure SinkTerms (g : Graph) (first : Session) (calls : List (Call × Statistics)) (m : Session)
    (stats : Statistics) (skip : List String) (source : NodeId) : Prop where
  ends
    : ∀ last,
        (m.view stats).StopsAt source m.nextStage last →
          ∃ given,
            g.computation (m.node last).atomic.computation = .ok given
            ∧ ∀ c,
                first.DirectedBy calls given c →
                  m.EndsIn stats skip c
                    (g.sink? first.jobId first.config.pageSize (m.node last).atomic c)
  planned
    : ∀ increment next,
        m.attempt stats skip = (.planned increment, next) →
          ∃ last,
            (∃ here draft prev, (m.view stats).Comes source m.nextStage here draft prev last)
            ∧ ((m.view stats).stops last = true ∨ (m.node last).kind = .join .notStarted)
  redirects
    : ∀ name output given,
        first.Redirects calls name output →
          g.computation name = .ok given →
            given.materializeOutput = false
            ∧ ∃ a ∈ g.atomics,
                a.computation = name ∧ a.output = output ∧ g.isMaterialized a = true

/-- If computations are filed under their own names, the sinks of a job are decided by its graph and
by which computations were redirected before.
Witness: whose readers are left to come to a node does not count, and computations are directed by
the pipelines that were planned.
-/
theorem sinkTerms_of_run {jobId : String} {config : PlannerConfig}
    (started : Session.start jobId g config = .ok first) (named : g.Named)
    (calls : List (Call × Statistics)) (waits : (first.run calls).2.Waits m)
    (picked : m.pick stats skip = some (key, source))
    : SinkTerms g first calls m stats skip source := by
  obtain ⟨beginning, -⟩ := beginning_of_start started
  refine ⟨fun last stopsAt => beginning.endsIn named waits picked stopsAt, ?_, ?_⟩
  · exact fun increment next planned => exists_end picked planned
  · exact fun name output given sent found => beginning.redirects named sent found

/-- In all runs pipelines end where the computations say as they were submitted. -/
def SinksAsSubmitted (first : Session) (g : Graph) : Prop :=
  ∀ calls m stats skip key source last given,
    (first.run calls).2.Waits m →
      m.pick stats skip = some (key, source) →
        (m.view stats).StopsAt source m.nextStage last →
          g.computation (m.node last).atomic.computation = .ok given →
            m.EndsIn stats skip given
              (g.sink? first.jobId first.config.pageSize (m.node last).atomic given)

/-- Sinks are as submitted if no two atomics have one computation, and steps read one tuple set.
Witness: a computation is redirected only for its atomic, to which no pipeline comes again.
-/
theorem sinksAsSubmitted_of_own (beginning : first.Beginning g) (named : g.Named)
    (distinct : (g.atomics.map Atomic.computation).Nodup)
    (single : ∀ a ∈ g.atomics, a.kind = .other → ∃ input, a.ReadsOnly input)
    : first.SinksAsSubmitted g := by
  intro calls m stats skip key source last given waits picked stopsAt found
  obtain ⟨followed, reaches, kept⟩ := beginning.stepsKept_of_waits named calls waits
  obtain ⟨given', c, found', there, name, kind⟩ := reaches.exists_given beginning.graph stopsAt
  obtain rfl := Except.ok.inj (found.symm.trans found')
  have steady := steady_wellKeyed g first distinct single
  obtain ⟨followed', reaches', -, own⟩ := @Steady.waits _ steady _ _ .empty
    (steady.run (beginning.wellKeyed named) calls) waits
  have wired : Arena.Wired g (m.view stats).topology.arena := reaches'.wired
  have ledger : (m.view stats).topology.arena.Ledger followed' := reaches'.ledger
  obtain ⟨⟨next, draft, prev, comes⟩, -⟩ := id stopsAt
  obtain ⟨edge, fresh⟩ := comes.fresh wired ledger
  obtain ⟨d, here, like⟩ := own.given last (wired.has_consumer edge)
    (not_reached_of_fresh wired ledger single edge fresh) c there
  obtain rfl := Except.ok.inj (found.symm.trans here)
  exact kept.endsIn reaches picked stopsAt there like name kind

/-- A selection that names no set is made twice: its output is materialized for a write, and read by
the selection again, which nothing reads.
-/
def sharedStep : Graph :=
  .ofLists
    [.scan "scan" "db" "data", .ofKind "clean" .selection,
      (Computation.ofKind "write" .write).setOutput "db" "out"]
    [.scan "in" "scan", .apply "a" "in" "clean", .apply "b" "a" "clean",
      .apply "out" "a" "write"]

/-- The second pipeline stops at the selection that nothing reads, and ends in the set of the first
one.
-/
theorem run_sharedStep
    : ∃ first m increment next,
        Session.start "job" sharedStep .standard = .ok first
        ∧ (first.run [(.planIncrement, .empty)]).2 = m
        ∧ m.pick .empty [] = some ("job:a", ⟨1⟩)
        ∧ (m.view .empty).StopsAt ⟨1⟩ m.nextStage ⟨2⟩
        ∧ (m.node ⟨2⟩).atomic = .apply "b" "a" "clean"
        ∧ m.attempt .empty [] = (.planned increment, next)
        ∧ finalSink? increment.stages = some (.user "job" "a") := by
  have evaluated :
      (Session.start "job" sharedStep .standard).toOption.any (fun first =>
        let m := (first.run [(.planIncrement, .empty)]).2
        decide (m.pick .empty [] = some ("job:a", ⟨1⟩)
          ∧ (m.node ⟨1⟩).sourceSet.isSome
          ∧ (m.node ⟨1⟩).active = [⟨2⟩, ⟨3⟩]
          ∧ (m.view .empty).stops ⟨2⟩ = true
          ∧ (m.node ⟨2⟩).atomic = .apply "b" "a" "clean"
          ∧ ((m.attempt .empty []).1.increment?.bind fun increment =>
              finalSink? increment.stages) = some (.user "job" "a"))) = true := by
    decide +kernel
  obtain ⟨first, started, evaluated⟩ := Except.toOption_any_iff.mp evaluated
  simp only [decide_eq_true_eq] at evaluated
  generalize ran : (first.run [(.planIncrement, .empty)]).2 = m at evaluated
  obtain ⟨picked, isSource, active, stops, atomic, final⟩ := evaluated
  obtain ⟨set, isSource⟩ := Option.isSome_iff_exists.mp isSource
  obtain ⟨increment, planned, final⟩ := Option.bind_eq_some_iff.mp final
  exact ⟨first, m, increment, _, started, ran, picked,
    ⟨⟨_, _, _, .start isSource active⟩, stops⟩, atomic,
    Prod.ext (Attempt.increment?_eq_some_iff.mp planned) rfl, final⟩

/-- The submitted selection names no set, but planning one of its atomics gives the other one a
sink.
-/
theorem sharedStep_misdirects
    : ∃ first m increment next,
        Session.start "job" sharedStep .standard = .ok first
        ∧ (first.run [(.planIncrement, .empty)]).2.Waits m
        ∧ m.pick .empty [] = some ("job:a", ⟨1⟩)
        ∧ (m.view .empty).StopsAt ⟨1⟩ m.nextStage ⟨2⟩
        ∧ sharedStep.isUnread (m.node ⟨2⟩).atomic = true
        ∧ sharedStep.computation (m.node ⟨2⟩).atomic.computation
          = .ok (.ofKind "clean" .selection)
        ∧ m.attempt .empty [] = (.planned increment, next)
        ∧ finalSink? increment.stages = some (.user "job" "a")
        ∧ ¬ first.SinksAsSubmitted sharedStep := by
  obtain ⟨first, m, increment, next, started, rfl, picked, stopsAt, atomic, planned, final⟩ :=
    run_sharedStep
  have unread : sharedStep.isUnread (.apply "b" "a" "clean") = true := by decide
  have given : sharedStep.computation
      ((first.run [(.planIncrement, .empty)]).2.node ⟨2⟩).atomic.computation
        = .ok (.ofKind "clean" .selection) := by
    rw [atomic]
    rfl
  refine ⟨first, _, increment, next, started, .here, picked, stopsAt, atomic ▸ unread, given,
    planned, final, fun claimed => ?_⟩
  have ends := claimed _ _ _ _ _ _ _ _ .here picked stopsAt given
  have none : sharedStep.sink? first.jobId first.config.pageSize (.apply "b" "a" "clean")
      (.ofKind "clean" .selection) = none := by
    rw [Graph.sink?, if_pos unread]
    rfl
  rw [atomic, none] at ends
  cases ends with
  | unsupported failed => simp [planned] at failed

theorem sharedStep_sinkTerms
    : ∃ first m,
        Session.start "job" sharedStep .standard = .ok first
        ∧ (first.run [(.planIncrement, .empty)]).2.Waits m
        ∧ m.pick .empty [] = some ("job:a", ⟨1⟩)
        ∧ SinkTerms sharedStep first [(.planIncrement, .empty)] m .empty [] ⟨1⟩ := by
  obtain ⟨first, m, increment, next, started, rfl, picked, -⟩ := run_sharedStep
  exact ⟨first, _, started, .here, picked,
    sinkTerms_of_run started (Graph.named_ofLists _ _) _ .here picked⟩

end DataflowPlan.Session
