import DataflowPlan.Proofs.Cluster.Seeding
import DataflowPlan.Proofs.Scheduler.Foresight

/-! How a run begins. What its first round plans is what planning in one go with the same costs
plans first, and what it sends out begins with it. A simulation starts from the costs that its job
states.
-/

namespace DataflowPlan

-----------------------------------------------------------------------------------------------
-- Stages that are sent out
-----------------------------------------------------------------------------------------------

namespace Step

variable {σ : Type}

/-- The step sends out nothing. -/
def Silent (step : Step σ) : Prop := Keeps (·.run.dispatched) step

/-- A step that goes well sends out these stages, and one that fails some of them, from the first
one on.
-/
def Sends (step : Step σ) (stages : List Stage) : Prop :=
  ∀ e,
    ∃ sent,
      sent <+: stages
      ∧ (step e).2.run.dispatched = e.run.dispatched ++ sent
      ∧ ((step e).1 = .ok () → sent = stages)

theorem Silent.sends {step : Step σ} (silent : step.Silent) : step.Sends [] :=
  fun e => ⟨[], List.prefix_refl _, (silent e).trans (List.append_nil _).symm, fun _ => rfl⟩

theorem Sends.andThen {first second : Step σ} {stages more : List Stage}
    (one : first.Sends stages) (two : second.Sends more)
    : (first.andThen second).Sends (stages ++ more) := by
  intro e
  obtain ⟨sent, part, noted, whole⟩ := one e
  rw [Step.andThen]
  rcases outcome : first e with ⟨error | ⟨⟩, next⟩
  · rw [outcome] at noted
    exact ⟨sent, part.trans (List.prefix_append _ _), noted, by simp⟩
  · rw [outcome] at noted whole
    obtain rfl := whole rfl
    obtain ⟨later, rest, further, all⟩ := two next
    refine ⟨sent ++ later, (List.prefix_append_right_inj sent).mpr rest, ?_, fun ok => ?_⟩
    · rw [further, noted, List.append_assoc]
    · rw [all ok]

theorem Sends.forEach {step : Stage → Step σ} (each : ∀ stage, (step stage).Sends [stage])
    (stages : List Stage)
    : (forEach step stages).Sends stages := by
  induction stages with
  | nil => exact Silent.sends fun _ => rfl
  | cons stage rest ih => exact (each stage).andThen ih

theorem Silent.andThen_sends {first second : Step σ} {stages : List Stage} (one : first.Silent)
    (two : second.Sends stages)
    : (first.andThen second).Sends stages :=
  one.sends.andThen two

end Step

namespace Service

variable {σ : Type} (service : Service σ) (cluster : ClusterConfig)

theorem silent_createLive (set : SetId) : (service.createLive cluster set).Silent := by
  refine Step.Keeps.andThen ?_ (Step.Keeps.andThen ?_ ?_)
  all_goals exact fun _ => rfl

theorem silent_removeConsumed : (service.removeConsumed cluster).Silent := by
  intro e
  have each
      : (Step.forEach (fun set => Step.ask (service.removeEverywhere cluster set))
          (e.run.liveSets.filter (!e.session.hasConsumers ·.key))).Silent :=
    Step.Keeps.forEach (fun _ _ => rfl) _
  exact each _

/-- A stage counts as sent out once all nodes have run it. -/
theorem sends_runStage (stage : Stage) : (service.runStage cluster stage).Sends [stage] := by
  refine Step.Silent.andThen_sends ?check
    (Step.Silent.andThen_sends ?results (Step.Silent.andThen_sends ?dispatch ?note))
  case note => exact fun e => ⟨[stage], List.prefix_refl _, rfl, fun _ => rfl⟩
  all_goals exact fun _ => rfl

theorem sends_carryOut (increment : Increment)
    : (service.carryOut cluster increment).Sends increment.stages := by
  refine Step.Silent.andThen_sends (fun _ => rfl) (Step.Silent.andThen_sends ?create ?stages)
  case create => exact Step.Keeps.forEach (service.silent_createLive cluster) _
  case stages =>
    have sends := Step.Sends.forEach (service.sends_runStage cluster) increment.stages
    simpa using sends.andThen (service.silent_removeConsumed cluster).sends

/-- What is sent out stays so in all later rounds. -/
theorem leads_drive_dispatched (stages : List Stage) (fuel : Nat)
    : Step.Leads
        (fun e =>
          stages <+: e.run.dispatched ∧ e.session.topology.arena.activeCount ≤ fuel)
        (service.drive cluster fuel)
        (fun e => stages <+: e.run.dispatched ∧ e.session.hasSources = false)
        fun e => stages <+: e.run.dispatched := by
  have planning : ∀ e, (service.planNext cluster e).2.run = e.run := fun e =>
    (service.planNext_spec cluster e).1
  refine Service.leads_drive (leads_checkCancelled (fun _ holds => holds) fun _ holds => holds)
    ?_ ?_ fuel
  · intro e error next holds planned
    have same := planning e
    rw [planned] at same
    exact same ▸ holds
  · rintro e increment next holds planned - _ rfl
    have same := planning e
    rw [planned] at same
    obtain ⟨sent, -, noted, -⟩ := service.sends_carryOut cluster increment _
    have more := (same ▸ holds).trans ⟨sent, noted.symm⟩
    exact ⟨fun _ => more, fun _ _ => more⟩

variable {service cluster} {session : Session} {state : σ} {begun ready next : Execution σ}
  {increment : Increment} {error : ExecError}

/-- A run whose first round is not planned fails with the error of planning it. -/
theorem run_of_unplanned (sources : session.hasSources = true)
    (checked : service.checkCancelled ⟨session, .start, state⟩ = (.ok (), begun))
    (fails : service.planNext cluster begun = (.error error, next))
    : (service.run cluster session state).1 = .error error := by
  have rounds : service.Rounds cluster ⟨session, .start, state⟩ .empty ⟨session, .start, state⟩ :=
    .start
  obtain ⟨fuel, same⟩ := rounds.goes_on sources
  have driven
      : service.drive cluster session.topology.arena.activeCount ⟨session, .start, state⟩
        = (.error error, next) := by
    rw [same, drive]
    simp [sources, checked, fails]
  rw [run, driven]
  rfl

/-- A run sends out the stages of its first increment before all others, or breaks off before it has
sent out all of them.
-/
theorem run_of_planned (sources : session.hasSources = true)
    (checked : service.checkCancelled ⟨session, .start, state⟩ = (.ok (), begun))
    (planned : service.planNext cluster begun = (.ok increment, ready))
    : increment.stages <+: (service.run cluster session state).2.run.dispatched
      ∨ (∃ error, (service.run cluster session state).1 = .error error)
        ∧ (service.run cluster session state).2.run.dispatched <+: increment.stages := by
  let start : Execution σ := ⟨session, .start, state⟩
  have rounds : service.Rounds cluster start .empty start := .start
  have nothing : ready.run.dispatched = [] := by
    have planning := (service.planNext_spec cluster begun).1
    rw [planned] at planning
    exact congrArg Run.dispatched (planning.trans (congrArg (·.2.run) checked).symm)
  obtain ⟨some, -⟩ := service.planned_of_planNext (e := start) sources checked planned
  obtain ⟨sent, part, noted, whole⟩ := service.sends_carryOut cluster increment ready
  rw [nothing, List.nil_append] at noted
  rcases done : service.carryOut cluster increment ready with ⟨error | ⟨⟩, next⟩
  · -- the first round breaks off, and no other one follows
    have driven := rounds.drive_of_broken sources checked planned some done
    rw [done] at noted
    refine .inr ⟨⟨error, ?_⟩, ?_⟩
    · rw [run, driven]
      rfl
    · have left : (service.run cluster session state).2.run.dispatched = sent :=
        (congrArg (·.2.run.dispatched) driven).trans noted
      exact left ▸ part
  · -- the other rounds only add to what the first one sent out
    have round : service.Round cluster start increment next :=
      .carried sources checked planned some done
    obtain ⟨fuel, enough, driven⟩ := (rounds.next round).drive_eq
    rw [done] at noted whole
    have begins : increment.stages <+: next.run.dispatched := by
      rw [noted, whole rfl]
    have later :=
      (service.leads_drive_dispatched cluster increment.stages fuel).always
        (fun _ ended => ended.1) ⟨begins, enough⟩
    rw [← driven] at later
    exact .inl later

end Service

-----------------------------------------------------------------------------------------------
-- The first increment
-----------------------------------------------------------------------------------------------

namespace Session

variable {s next : Session} {stats : Statistics} {increment : Increment} {error : Error}
  {plan : Plan}

theorem hasSources_of_planIncrement_error (fails : (s.planIncrement stats).1 = .error error)
    : s.hasSources = true := by
  by_contra idle
  rw [planIncrement_of_idle (by simpa using idle)] at fails
  simp at fails

/-- Planning all fails with the error of its first increment. -/
theorem planAll_of_error (fails : (s.planIncrement stats).1 = .error error)
    : (s.planAll stats).1 = .error error := by
  have live := hasSources_of_planIncrement_error fails
  rcases outcome : s.planIncrement stats with ⟨cause | increment, next⟩
  all_goals rw [outcome] at fails
  · obtain rfl := Except.error.inj fails
    rw [planAll]
    cases count : s.topology.arena.activeCount with
    | zero => simp [hasSources_of_activeCount count] at live
    | succ fuel => simp [planWithin, live, outcome]
  · simp at fails

/-- A plan of all begins with the first increment. -/
theorem prefix_of_planAll (planned : (s.planIncrement stats).1 = .ok increment)
    (all : (s.planAll stats).1 = .ok plan)
    : increment.stages <+: plan.stages
      ∧ increment.intermediateSets <+: plan.intermediateSets := by
  cases live : s.hasSources with
  | false =>
      rw [planIncrement_of_idle live] at planned
      obtain rfl := Except.ok.inj planned
      exact ⟨List.nil_prefix, List.nil_prefix⟩
  | true =>
      obtain ⟨fuel, enough, same⟩ :=
        (ComesBy.start s stats).planned (Prod.ext planned rfl) live
      rw [same] at all
      obtain ⟨-, -, out, -, rfl⟩ := planWithin_eq_ok (Prod.ext all rfl) enough
      simp [Plan.extend, Plan.ofJob, Increment.append, Increment.empty]

end Session

-----------------------------------------------------------------------------------------------
-- Simulations
-----------------------------------------------------------------------------------------------

/-- The first increment that is planned of a job in one go; it is empty if there is nothing to plan.
-/
def Job.firstIncrement (job : Job) : Except Error Increment := do
  let session ← Session.start job.id job.graph job.config
  (session.planIncrement job.statistics).1

/-- The error of planning with which a simulation fails, before its run or in it. -/
def SimulationFault.planning? : SimulationFault → Option Error
  | .planning error | .run (.planning error) => some error
  | .nodes _ | .run _ => none

/-- The cluster of a simulation. -/
def ClusterConfig.simulated (env : Environment) (nodes : List ClusterNode) : ClusterConfig :=
  { ClusterConfig.ofEnvironment env with nodes }

/-- How a job begins to run on a cluster over which its sizes are spread, and how its plan begins.
-/
structure Job.BeginsAsPlanned (job : Job) (nodes : Nat) (cluster : ClusterConfig) : Prop where
  /-- Before the first round the nodes report the costs that the job states. -/
  costs
    : ∃ stats,
        LocalCluster.service.refresh cluster (.ofSizes job.sizes nodes)
          = (.ok stats, .ofSizes job.sizes nodes)
        ∧ ∀ database name,
            stats.cost database name = job.statistics.cost database name
            ∧ stats.cost database name
              = Float.ofNat (SetSize.lastBytes job.sizes (setKey database name) / 1000000)
  /-- The first round plans the first increment of the plan, and leads to the same session. -/
  planned
    : ∀ session,
        Session.start job.id job.graph job.config = .ok session →
          LocalCluster.service.planNext cluster ⟨session, .start, .ofSizes job.sizes nodes⟩
            = (job.firstIncrement.mapError .planning,
                ⟨(session.planIncrement job.statistics).2, .start, .ofSizes job.sizes nodes⟩)
  fails
    : ∀ error,
        job.firstIncrement = .error error →
          planJob job.id job.graph job.config job.statistics = .error error
          ∧ ∀ session,
              Session.start job.id job.graph job.config = .ok session →
                (LocalCluster.service.run cluster session (.ofSizes job.sizes nodes)).1
                  = .error (.planning error)
  begins
    : ∀ increment,
        job.firstIncrement = .ok increment →
          (∀ plan,
              planJob job.id job.graph job.config job.statistics = .ok plan →
                increment.stages <+: plan.stages
                ∧ increment.intermediateSets <+: plan.intermediateSets)
          ∧ ∀ session result last,
              Session.start job.id job.graph job.config = .ok session →
                LocalCluster.service.run cluster session (.ofSizes job.sizes nodes)
                  = (result, last) →
                  increment.stages <+: last.run.dispatched
                  ∨ (∃ error, result = .error error)
                    ∧ last.run.dispatched <+: increment.stages

theorem ClusterNode.ids_of_simulatedNodes {count cores : Nat} {nodes : List ClusterNode}
    (simulated : simulatedNodes count cores = .ok nodes)
    : nodes.map ClusterNode.id = List.range count := by
  unfold simulatedNodes at simulated
  split at simulated
  · simp at simulated
  · split at simulated
    · simp at simulated
    · obtain rfl := Except.ok.inj simulated
      simp [Function.comp_def, ClusterNode.simulated]

theorem ClusterConfig.ids_simulated (env : Environment) {count cores : Nat}
    {nodes : List ClusterNode} (known : ClusterNode.simulatedNodes count cores = .ok nodes)
    : ((ClusterConfig.simulated env nodes).nodes.map ClusterNode.id).Perm (List.range count) :=
  .of_eq (ClusterNode.ids_of_simulatedNodes known)

/-- Nobody cancels a simulation. -/
theorem LocalCluster.checkCancelled_eq (e : Execution LocalCluster)
    : service.checkCancelled e = (.ok (), e) := rfl

section Simulations

variable {job : Job} {error : Error} {increment : Increment}

section Started

variable {session : Session} (started : Session.start job.id job.graph job.config = .ok session)

include started

theorem Job.firstIncrement_of_start
    : job.firstIncrement = (session.planIncrement job.statistics).1 := by
  rw [Job.firstIncrement, started, Except.ok_bind]

theorem Job.planJob_of_start
    : planJob job.id job.graph job.config job.statistics
        = (session.planAll job.statistics).1 := by
  rw [planJob, started, Except.ok_bind]

theorem Job.simulate_of_start {env : Environment} {nodes cores : Nat}
    {simulated : List ClusterNode}
    (known : ClusterNode.simulatedNodes nodes cores = .ok simulated)
    (valid : (ClusterConfig.simulated env simulated).validate = .ok ())
    : job.simulate env nodes cores
        = (LocalCluster.service.run (.simulated env simulated) session
            (.ofSizes job.sizes nodes)).1.mapError .run := by
  have length : simulated.length = nodes := by
    simpa using congrArg List.length (ClusterNode.ids_of_simulatedNodes known)
  have valid : ({ ClusterConfig.ofEnvironment env with nodes := simulated }
      : ClusterConfig).validate = .ok () := valid
  simp only [Job.simulate, known, started, valid, length, Except.mapError, Except.ok_bind]
  rfl

variable {nodes : Nat} (some : 0 < nodes) {cluster : ClusterConfig}
  (ids : (cluster.nodes.map ClusterNode.id).Perm (List.range nodes))

include some ids

/-- The first round sees the costs that the job states, and no others. -/
theorem LocalCluster.planNext_ofSizes
    : service.planNext cluster ⟨session, .start, ofSizes job.sizes nodes⟩
        = (job.firstIncrement.mapError .planning,
            ⟨(session.planIncrement job.statistics).2, .start, ofSizes job.sizes nodes⟩) := by
  obtain ⟨stats, asked, same⟩ := exists_refresh_ofSizes job some ids
  have alike : session.CostsAlike job.statistics stats := fun _ set _ =>
    same set.database set.name
  rw [Service.planNext, asked, Job.firstIncrement_of_start started]
  simp only [alike.planIncrement]
  rcases session.planIncrement job.statistics with ⟨error | increment, next⟩ <;> rfl

theorem LocalCluster.run_ofSizes_of_error (fails : job.firstIncrement = .error error)
    : (service.run cluster session (ofSizes job.sizes nodes)).1 = .error (.planning error) := by
  have planning := planNext_ofSizes started some ids
  rw [fails] at planning
  rw [Job.firstIncrement_of_start started] at fails
  exact Service.run_of_unplanned (Session.hasSources_of_planIncrement_error fails)
    (checkCancelled_eq _) planning

theorem LocalCluster.run_ofSizes_of_ok (planned : job.firstIncrement = .ok increment)
    {result : Except ExecError RunReport} {last : Execution LocalCluster}
    (ran : service.run cluster session (ofSizes job.sizes nodes) = (result, last))
    : increment.stages <+: last.run.dispatched
      ∨ (∃ error, result = .error error) ∧ last.run.dispatched <+: increment.stages := by
  have planning := planNext_ofSizes started some ids
  rw [planned] at planning
  cases live : session.hasSources with
  | true =>
      have begins := Service.run_of_planned live (checkCancelled_eq _) planning
      rwa [ran] at begins
  | false =>
      rw [Job.firstIncrement_of_start started, Session.planIncrement_of_idle live] at planned
      obtain rfl := Except.ok.inj planned
      exact .inl List.nil_prefix

end Started

theorem Job.planJob_of_error (fails : job.firstIncrement = .error error)
    : planJob job.id job.graph job.config job.statistics = .error error := by
  cases started : Session.start job.id job.graph job.config with
  | error cause =>
      rw [Job.firstIncrement, started, Except.error_bind] at fails
      obtain rfl := Except.error.inj fails
      rw [planJob, started, Except.error_bind]
  | ok session =>
      rw [Job.firstIncrement_of_start started] at fails
      rw [Job.planJob_of_start started]
      exact Session.planAll_of_error fails

theorem Job.prefix_of_planJob {plan : Plan} (planned : job.firstIncrement = .ok increment)
    (all : planJob job.id job.graph job.config job.statistics = .ok plan)
    : increment.stages <+: plan.stages
      ∧ increment.intermediateSets <+: plan.intermediateSets := by
  obtain ⟨session, started, planned⟩ := Except.bind_eq_ok.mp planned
  rw [Job.planJob_of_start started] at all
  exact Session.prefix_of_planAll planned all

theorem Job.beginsAsPlanned (job : Job) {nodes : Nat} (some : 0 < nodes)
    {cluster : ClusterConfig}
    (ids : (cluster.nodes.map ClusterNode.id).Perm (List.range nodes))
    : job.BeginsAsPlanned nodes cluster where
  costs := by
    obtain ⟨stats, asked, same⟩ := LocalCluster.exists_refresh_ofSizes job some ids
    exact ⟨stats, asked, fun database name =>
      ⟨same database name, (same database name).trans (job.cost_statistics database name)⟩⟩
  planned _ started := LocalCluster.planNext_ofSizes started some ids
  fails _ fails :=
    ⟨Job.planJob_of_error fails, fun _ started =>
      LocalCluster.run_ofSizes_of_error started some ids fails⟩
  begins _ planned :=
    ⟨fun _ all => Job.prefix_of_planJob planned all, fun _ _ _ started ran =>
      LocalCluster.run_ofSizes_of_ok started some ids planned ran⟩

/-- A simulation whose nodes are all right fails with the error of its job's first increment. -/
theorem Job.simulate_of_error {env : Environment} {nodes cores : Nat}
    {simulated : List ClusterNode} (some : 0 < nodes)
    (known : ClusterNode.simulatedNodes nodes cores = .ok simulated)
    (valid : (ClusterConfig.simulated env simulated).validate = .ok ())
    (fails : job.firstIncrement = .error error)
    : ∃ fault,
        job.simulate env nodes cores = .error fault ∧ fault.planning? = .some error := by
  cases started : Session.start job.id job.graph job.config with
  | error cause =>
      rw [Job.firstIncrement, started, Except.error_bind] at fails
      refine ⟨.planning cause, ?_, congrArg Option.some (Except.error.inj fails)⟩
      simp [Job.simulate, known, started, Except.mapError]
  | ok session =>
      have ran := LocalCluster.run_ofSizes_of_error started some
        (ClusterConfig.ids_simulated env known) fails
      refine ⟨.run (.planning error), ?_, rfl⟩
      rw [Job.simulate_of_start started known valid, ran, Except.mapError]

end Simulations

/-- For all sizes that a job states, however often it states them, and all numbers of nodes, its
simulation begins as its plan does, and fails with the same error if planning does not begin.
Witness: the shares of a set add up to its whole pages, so that statistics agree on every cost.
-/
theorem Job.simulation_begins_as_planned (job : Job) {nodes : Nat} (some : 0 < nodes)
    : (∀ cluster : ClusterConfig,
          (cluster.nodes.map ClusterNode.id).Perm (List.range nodes) →
            job.BeginsAsPlanned nodes cluster)
      ∧ ∀ env cores simulated,
          ClusterNode.simulatedNodes nodes cores = .ok simulated →
            (ClusterConfig.simulated env simulated).validate = .ok () →
              job.BeginsAsPlanned nodes (.simulated env simulated)
              ∧ (∀ session,
                  Session.start job.id job.graph job.config = .ok session →
                    job.simulate env nodes cores
                      = (LocalCluster.service.run (.simulated env simulated) session
                          (.ofSizes job.sizes nodes)).1.mapError .run)
              ∧ ∀ error,
                  job.firstIncrement = .error error →
                    ∃ fault,
                      job.simulate env nodes cores = .error fault
                      ∧ fault.planning? = .some error :=
  ⟨fun _ ids => job.beginsAsPlanned some ids, fun env _ _ known valid =>
    ⟨job.beginsAsPlanned some (ClusterConfig.ids_simulated env known),
      fun _ started => Job.simulate_of_start started known valid,
      fun _ fails => Job.simulate_of_error some known valid fails⟩⟩

/-- A join of two scanned sets. The size of the first one is stated again, and two sets share a key.
-/
def restated : Job where
  id := "job"
  config := .standard
  graph := twoScans
  sizes :=
    [⟨"db", "left", 99000000⟩, ⟨"db", "right", 7250000⟩, ⟨"db", "a:b", 5000000⟩,
      ⟨"db", "left", 20480000⟩, ⟨"db:a", "b", 3000000⟩]

/-- A scanned set is written to no set. -/
def unwritable : Job where
  id := "job"
  config := .standard
  graph :=
    .ofLists [.scan "scan" "db" "left", .ofKind "write" .write]
      [.scan "l" "scan", .apply "out" "l" "write"]
  sizes := [⟨"db", "left", 20480000⟩]

/-- The nodes do not come in the order of their identifiers. -/
def threeNodes : ClusterConfig where
  partitionRatio := 0.75
  nodes := [2, 0, 1].map (ClusterNode.simulated ClusterNode.defaultCores)

theorem restated_begins_as_planned
    : restated.BeginsAsPlanned 3 threeNodes
      ∧ unwritable.BeginsAsPlanned 3 (.simulated [] ((List.range 3).map (.simulated 8)))
      ∧ SetSize.lastBytes restated.sizes "db:left" = 20480000
      ∧ SetSize.lastBytes restated.sizes "db:a:b" = 3000000
      ∧ restated.firstIncrement.toOption.map (·.stages.length) = some 2
      ∧ ∃ fault,
          unwritable.simulate [] 3 8 = .error fault
          ∧ fault.planning? = some (.unsupportedSink "write" .write) := by
  have ids : (threeNodes.nodes.map ClusterNode.id).Perm (List.range 3) := by decide
  have fails : unwritable.firstIncrement = .error (.unsupportedSink "write" .write) := by
    decide +kernel
  have valid
      : (ClusterConfig.simulated [] ((List.range 3).map (.simulated 8))).validate = .ok () := by
    decide +kernel
  have some : 0 < 3 := by decide
  obtain ⟨begins, -, simulation⟩ :=
    (unwritable.simulation_begins_as_planned some).2 [] 8 _ rfl valid
  exact ⟨(restated.simulation_begins_as_planned some).1 threeNodes ids, begins, by decide,
    by decide, by decide +kernel, simulation _ fails⟩

end DataflowPlan
