import DataflowPlan.Proofs.Cluster.Sizes
import DataflowPlan.Proofs.Scheduler.Lifecycle
import DataflowPlan.Proofs.Session.Costs
import DataflowPlan.Proofs.Session.ScansOnly

/-! Runs of jobs that start from scans alone. Planning sees nothing of what such a run makes, writes
or removes, so that each of its rounds plans what planning all at once would have planned there.
-/

namespace DataflowPlan

namespace Session

variable {first s next : Session} {stats : Statistics} {out increment : Increment}

/-- Planning all from the first session plans what is there so far and goes on from the session. -/
def ComesBy (first : Session) (stats : Statistics) (out : Increment) (s : Session) : Prop :=
  ∃ fuel,
    s.topology.arena.activeCount ≤ fuel
    ∧ first.planAll stats = planWithin stats fuel ((Plan.ofJob first.jobId).extend out) s

theorem ComesBy.start (s : Session) (stats : Statistics) : s.ComesBy stats .empty s :=
  ⟨_, Nat.le_refl _, by rw [extend_empty, planAll]⟩

theorem ComesBy.planned (comes : first.ComesBy stats out s)
    (planned : s.planIncrement stats = (.ok increment, next)) (live : s.hasSources = true)
    : first.ComesBy stats (out.append increment) next := by
  obtain ⟨fuel, enough, same⟩ := comes
  have fewer := activeCount_of_planIncrement live planned
  obtain ⟨left, rfl⟩ : ∃ left, fuel = left + 1 := ⟨fuel - 1, by omega⟩
  refine ⟨left, by omega, same.trans ?_⟩
  simp [planWithin, live, planned, Plan.extend, Increment.append]

theorem ComesBy.done (comes : first.ComesBy stats out s) (none : s.hasSources = false)
    : (first.planAll stats).1 = .ok ((Plan.ofJob first.jobId).extend out) := by
  obtain ⟨fuel, -, same⟩ := comes
  rw [same]
  cases fuel with
  | zero => rfl
  | succ fuel => simp [planWithin, none]

end Session

-----------------------------------------------------------------------------------------------
-- One round
-----------------------------------------------------------------------------------------------

section Rounds

variable {σ : Type} {service : Service σ} {view : σ → LocalCluster} {fit : σ → Prop}
  {cluster : ClusterConfig} {keys : List String} {before : LocalCluster} {done : Increment}
  {e : Execution σ}

/-- What is done so far was sent out and created, and nothing of it is about the given keys. -/
structure Apart (view : σ → LocalCluster) (fit : σ → Prop) (keys : List String)
    (before : LocalCluster) (done : Increment) (e : Execution σ) : Prop where
  fits : fit e.state
  undisturbed : before.Undisturbed keys (view e.state)
  live : ∀ set ∈ e.run.liveSets, set.key ∉ keys
  dispatched : e.run.dispatched = done.stages
  created : e.run.setsCreated = done.intermediateSets.length

namespace Apart

/-- Nothing else of an execution matters. -/
theorem of_view (apart : Apart view fit keys before done e) {state : σ} {run : Run}
    (same : view state = view e.state) (fits : fit state) (live : run.liveSets ⊆ e.run.liveSets)
    (dispatched : run.dispatched = e.run.dispatched)
    (created : run.setsCreated = e.run.setsCreated)
    : Apart view fit keys before done { e with state, run } :=
  ⟨fits, same ▸ apart.undisturbed, fun set member => apart.live set (live member),
    dispatched.trans apart.dispatched, created.trans apart.created⟩

variable (acts : service.ActsOn view fit)

include acts

theorem leads_checkCancelled
    : Step.Leads (Apart view fit keys before done) service.checkCancelled
        (Apart view fit keys before done) fun _ => True := by
  refine Service.leads_checkCancelled (fun e apart => ?_) fun _ _ => trivial
  obtain ⟨same, fits⟩ := acts.isCancelled e.state apart.fits
  exact apart.of_view same fits (List.Subset.refl _) rfl rfl

theorem leads_createLive {set : SetId} (other : set.key ∉ keys)
    : Step.Leads (Apart view fit keys before done) (service.createLive cluster set)
        (Apart view fit keys before ⟨done.stages, done.intermediateSets ++ [set]⟩)
        fun _ => True := by
  have tracked
      : Step.Leads (Apart view fit keys before done)
          (Step.note fun run => { run with liveSets := run.liveSets ++ [set] })
          (Apart view fit keys before done) fun _ => True := by
    refine Step.leads_note fun e apart => ⟨apart.fits, apart.undisturbed, ?_, apart.dispatched,
      apart.created⟩
    intro live member
    rcases List.mem_append.mp member with earlier | now
    · exact apart.live live earlier
    · rwa [List.mem_singleton.mp now]
  have asked
      : Step.Leads (Apart view fit keys before done)
          (Step.ask (service.createEverywhere cluster set)) (Apart view fit keys before done)
          fun _ => True := by
    refine Step.leads_ask (fun e apart _ => ?_) fun _ _ _ _ => trivial
    obtain ⟨-, after, fits⟩ := acts.createEverywhere cluster set e.state apart.fits
    exact ⟨fits, after ▸ apart.undisturbed.createEverywhere cluster other, apart.live,
      apart.dispatched, apart.created⟩
  refine tracked.andThen (asked.andThen (Step.leads_note fun e apart => ?_))
  exact ⟨apart.fits, apart.undisturbed, apart.live, apart.dispatched, by simp [apart.created]⟩

theorem leads_runStage {stage : Stage}
    (other : ∀ key ∈ keys, ¬ stage.Writes key ∧ ¬ stage.Drops key)
    : Step.Leads (Apart view fit keys before done) (service.runStage cluster stage)
        (Apart view fit keys before ⟨done.stages ++ [stage], done.intermediateSets⟩)
        fun _ => True := by
  have noted
      : Step.Leads (Apart view fit keys before done)
          (Step.note fun run =>
            { run with
              aggregationResults :=
                run.aggregationResults ++ (stage.sink?.filter SetId.isAggregationResult).toList })
          (Apart view fit keys before done) fun _ => True :=
    Step.leads_note fun e apart => apart.of_view rfl apart.fits (List.Subset.refl _) rfl rfl
  have asked
      : Step.Leads (Apart view fit keys before done) (Step.ask (service.dispatch cluster stage))
          (Apart view fit keys before done) fun _ => True := by
    refine Step.leads_ask (fun e apart _ => ?_) fun _ _ _ _ => trivial
    obtain ⟨-, after, fits⟩ := acts.dispatch cluster stage e.state apart.fits
    exact ⟨fits, after ▸ apart.undisturbed.dispatch cluster other, apart.live, apart.dispatched,
      apart.created⟩
  refine (leads_checkCancelled acts).andThen
    (noted.andThen (asked.andThen (Step.leads_note fun e apart => ?_)))
  exact ⟨apart.fits, apart.undisturbed, apart.live, by simp [apart.dispatched], apart.created⟩

theorem leads_removeConsumed
    : Step.Leads (Apart view fit keys before done) (service.removeConsumed cluster)
        (Apart view fit keys before done) fun _ => True := by
  intro e apart
  let needed (set : SetId) : Bool := e.session.hasConsumers set.key
  have kept : Apart view fit keys before done
      { e with
        run :=
          { e.run with
            aggregationResults := e.run.aggregationResults.filter needed
            liveSets := e.run.liveSets.filter needed } } :=
    apart.of_view rfl apart.fits List.filter_sublist.subset rfl rfl
  have removing
      : Step.Leads (Apart view fit keys before done)
          (Step.forEach (fun set => Step.ask (service.removeEverywhere cluster set))
            (e.run.liveSets.filter (!needed ·)))
          (Apart view fit keys before done) fun _ => True := by
    refine Step.leads_forEach (fun _ => Apart view fit keys before done) _ ?_
    intro removed set rest whole
    have member : set ∈ e.run.liveSets.filter (!needed ·) := by simp [whole]
    have other := apart.live set (List.mem_filter.mp member).1
    refine Step.leads_ask (fun e apart _ => ?_) fun _ _ _ _ => trivial
    obtain ⟨-, after, fits⟩ := acts.removeEverywhere cluster set e.state apart.fits
    exact ⟨fits, after ▸ apart.undisturbed.removeEverywhere cluster other, apart.live,
      apart.dispatched, apart.created⟩
  exact removing _ kept

/-- A round sends out the stages of its increment, and creates its sets. -/
theorem leads_carryOut {increment : Increment}
    (sets : ∀ set ∈ increment.intermediateSets, set.key ∉ keys)
    (stages : ∀ stage ∈ increment.stages, ∀ key ∈ keys, ¬ stage.Writes key ∧ ¬ stage.Drops key)
    : Step.Leads (Apart view fit keys before done) (service.carryOut cluster increment)
        (Apart view fit keys before (done.append increment)) fun _ => True := by
  have counted
      : Step.Leads (Apart view fit keys before done)
          (Step.note fun run => { run with increments := run.increments + 1 })
          (Apart view fit keys before done) fun _ => True :=
    Step.leads_note fun e apart => apart.of_view rfl apart.fits (List.Subset.refl _) rfl rfl
  have creating
      : Step.Leads (Apart view fit keys before ⟨done.stages, done.intermediateSets ++ []⟩)
          (Step.forEach (service.createLive cluster) increment.intermediateSets)
          (Apart view fit keys before
            ⟨done.stages, done.intermediateSets ++ increment.intermediateSets⟩)
          fun _ => True := by
    refine Step.leads_forEach
      (fun made => Apart view fit keys before ⟨done.stages, done.intermediateSets ++ made⟩) _ ?_
    intro made set rest whole
    rw [← List.append_assoc]
    exact leads_createLive acts (sets set (by simp [whole]))
  have running
      : Step.Leads
          (Apart view fit keys before
            ⟨done.stages ++ [], done.intermediateSets ++ increment.intermediateSets⟩)
          (Step.forEach (service.runStage cluster) increment.stages)
          (Apart view fit keys before (done.append increment)) fun _ => True := by
    refine Step.leads_forEach
      (fun ran => Apart view fit keys before
        ⟨done.stages ++ ran, done.intermediateSets ++ increment.intermediateSets⟩) _ ?_
    intro ran stage rest whole
    rw [← List.append_assoc]
    exact leads_runStage acts (stages stage (by simp [whole]))
  rw [List.append_nil] at creating running
  exact counted.andThen (creating.andThen (running.andThen (leads_removeConsumed acts)))

end Apart

-----------------------------------------------------------------------------------------------
-- Rounds in turn
-----------------------------------------------------------------------------------------------

/-- A job that starts from scans alone, run on a cluster of which the statistics are those given. -/
structure Foreseeable (g : Graph) (first : Session) (stats : Statistics) (cluster : ClusterConfig)
    (before : LocalCluster) : Prop where
  beginning : first.Beginning g
  only : g.ScansOnly
  apart : ∀ key ∈ g.scannedKeys, key ∉ g.writtenKeys first.jobId
  keyed : before.Keyed
  asked : (LocalCluster.service.refresh cluster before).1 = .ok stats

variable {g : Graph} {first s : Session} {stats other : Statistics} {out : Increment}

/-- What led to the execution was sent out and created, and planning all from the first session
plans it as well.
-/
structure Foreseen (view : σ → LocalCluster) (fit : σ → Prop) (g : Graph) (first : Session)
    (stats : Statistics) (before : LocalCluster) (out : Increment) (e : Execution σ) : Prop where
  leads : first.LeadsTo out e.session
  comes : first.ComesBy stats out e.session
  apart : Apart view fit g.scannedKeys before out e

namespace Foreseeable

variable (job : Foreseeable g first stats cluster before)

include job

theorem scansOnly (leads : first.LeadsTo out s) : Session.ScansOnly g first out s := by
  obtain ⟨-, -, holds⟩ := leads.steady (Session.steady_scansOnly g first job.only)
    ⟨[], job.beginning.reaches, job.beginning.scansOnly⟩
  exact holds

/-- No scanned set is created, written or dropped. -/
theorem spares (leads : first.LeadsTo out s)
    : (∀ set ∈ out.intermediateSets, set.key ∉ g.scannedKeys)
      ∧ ∀ stage ∈ out.stages,
          ∀ key ∈ g.scannedKeys, ¬ stage.Writes key ∧ ¬ stage.Drops key := by
  have holds := job.scansOnly leads
  have spends := (leads.steady Session.steady_spends job.beginning.spends).stages
  refine ⟨fun set member scanned => job.apart _ scanned (holds.declared set member), ?_⟩
  refine fun stage member key scanned => ⟨fun writes => ?_, fun drops => ?_⟩
  · exact job.apart key scanned (holds.written stage member key writes)
  · obtain ⟨earlier, later, whole⟩ := List.append_of_mem member
    obtain ⟨writer, before, writes⟩ := spends earlier stage later whole key drops
    have listed : writer ∈ out.stages := whole ▸ List.mem_append_left _ before
    exact job.apart key scanned (holds.written writer listed key writes)

/-- Statistics of the cluster as it is by now weigh every source as they did at first. -/
theorem costsAlike {c : LocalCluster} (leads : first.LeadsTo out s)
    (undisturbed : before.Undisturbed g.scannedKeys c)
    (again : (LocalCluster.service.refresh cluster c).1 = .ok other)
    : s.CostsAlike stats other := by
  intro p set isSource
  rw [(job.scansOnly leads).sources] at isSource
  exact undisturbed.costOf_refresh cluster job.keyed job.asked again
    (job.beginning.mem_scannedKeys isSource)

variable (acts : service.ActsOn view fit)

include acts

/-- A round plans what planning with the first statistics plans there, and disturbs nothing. -/
theorem planNext {increment : Increment} {next : Execution σ}
    (foreseen : Foreseen view fit g first stats before out e)
    (planned : service.planNext cluster e = (.ok increment, next))
    (some : increment.isEmpty = false)
    : first.LeadsTo (out.append increment) next.session
      ∧ first.ComesBy stats (out.append increment) next.session
      ∧ Apart view fit g.scannedKeys before out next := by
  obtain ⟨leads, comes, apart⟩ := foreseen
  have further := (leads.planNext service cluster).1
  rw [planned] at further
  obtain ⟨answer, after, fits⟩ := acts.refresh cluster e.state apart.fits
  rw [LocalCluster.refresh_state] at after
  unfold Service.planNext at planned
  rcases asked : service.refresh cluster e.state with ⟨error | other, state⟩
  · simp [asked] at planned
  · rw [asked] at answer after fits
    have alike := job.costsAlike leads apart.undisturbed answer.symm
    simp only [asked, alike.planIncrement] at planned
    rcases outcome : e.session.planIncrement stats with ⟨error | found, session⟩
    · simp [outcome] at planned
    · simp only [outcome, Prod.mk.injEq, Except.ok.injEq] at planned
      obtain ⟨rfl, rfl⟩ := planned
      have live : e.session.hasSources = true := by
        by_contra none
        rw [Session.planIncrement_of_idle (by simpa using none)] at outcome
        obtain rfl := Except.ok.inj (Prod.mk.inj outcome).1
        simp [Increment.isEmpty, Increment.empty] at some
      exact ⟨further found rfl, comes.planned outcome live,
        fits, after ▸ apart.undisturbed, apart.live, apart.dispatched, apart.created⟩

/-- The rounds of a run that goes well plan what planning all at once plans. -/
theorem leads_drive (fuel : Nat)
    : Step.Leads
        (fun e =>
          (∃ out, Foreseen view fit g first stats before out e)
          ∧ e.session.topology.arena.activeCount ≤ fuel)
        (service.drive cluster fuel)
        (fun e =>
          (∃ out, Foreseen view fit g first stats before out e) ∧ e.session.hasSources = false)
        fun _ => True := by
  refine Service.leads_drive ?_ (fun _ _ _ _ _ => trivial) ?_ fuel
  · rintro e ⟨out, leads, comes, apart⟩
    refine ⟨fun ok => ⟨out, leads, comes, ?_⟩, fun _ _ => trivial⟩
    exact (Apart.leads_checkCancelled acts e apart).1 ok
  · rintro e increment _ ⟨out, foreseen⟩ planned some next rfl
    obtain ⟨leads, comes, apart⟩ := job.planNext acts foreseen planned some
    obtain ⟨sets, stages⟩ := job.spares leads
    obtain ⟨well, -⟩ := Apart.leads_carryOut acts
      (fun set member => sets set (List.mem_append_right _ member))
      (fun stage member => stages stage (List.mem_append_right _ member)) _ apart
    have kept := service.keepsSession_carryOut cluster increment next
    exact ⟨fun ok => ⟨_, kept.symm ▸ leads, kept.symm ▸ comes, well ok⟩, fun _ _ => trivial⟩

end Foreseeable

end Rounds

-----------------------------------------------------------------------------------------------
-- Runs
-----------------------------------------------------------------------------------------------

/-- A run that succeeds has sent out the stages of the plan that is made in one go, with the
statistics of the cluster before it, if only scans are sources and no scanned set has the key of a
set that another computation names or that planning can make.
Witness: the run creates, writes and removes no scanned set, so that in each round the statistics
give every source the cost that they gave it at first.
-/
theorem run_foreseen {σ : Type} {service : Service σ} {view : σ → LocalCluster} {fit : σ → Prop}
    {cluster : ClusterConfig} {jobId : String} {g : Graph} {config : PlannerConfig}
    {first : Session} {state : σ} {stats : Statistics} {report : RunReport}
    (started : Session.start jobId g config = .ok first) (only : g.ScansOnly)
    (apart : ∀ key ∈ g.scannedKeys, key ∉ g.writtenKeys jobId)
    (acts : service.ActsOn view fit) (fits : fit state) (keyed : (view state).Keyed)
    (asked : (service.refresh cluster state).1 = .ok stats)
    (ran : (service.run cluster first state).1 = .ok report)
    : ∃ plan,
        planJob jobId g config stats = .ok plan
        ∧ (service.run cluster first state).2.run.dispatched = plan.stages
        ∧ report.planHash = plan.fingerprint
        ∧ report.stages = plan.stages.length
        ∧ report.setsCreated = plan.intermediateSets.length := by
  obtain ⟨beginning, job, -, -⟩ := Session.beginning_of_start started
  have foreseeable : Foreseeable g first stats cluster (view state) :=
    ⟨beginning, only, job ▸ apart, keyed, (acts.refresh cluster state fits).1 ▸ asked⟩
  let start : Execution σ := ⟨first, .start, state⟩
  have begin : Apart view fit g.scannedKeys (view state) .empty start :=
    ⟨fits, ⟨keyed, fun _ _ _ => rfl⟩, by simp [start, Run.start], rfl, rfl⟩
  obtain ⟨ok, reported⟩ := Service.drive_of_run ran
  obtain ⟨⟨out, -, comes, done⟩, none⟩ := (foreseeable.leads_drive acts _ start
    ⟨⟨.empty, .refl first, .start first stats, begin⟩, Nat.le_refl _⟩).1 ok
  have dispatched : (service.run cluster first state).2.run.dispatched = out.stages :=
    done.dispatched
  have created : (service.run cluster first state).2.run.setsCreated
      = out.intermediateSets.length :=
    done.created
  refine ⟨(Plan.ofJob first.jobId).extend out, ?_, ?_, ?_, ?_, ?_⟩
  · simp only [planJob, started, Except.ok_bind]
    exact comes.done none
  · simp [dispatched, Plan.extend, Plan.ofJob]
  · simp [reported, dispatched, Plan.fingerprint, Plan.extend, Plan.ofJob]
  · simp [reported, dispatched, Plan.extend, Plan.ofJob]
  · simp [reported, created, Plan.extend, Plan.ofJob]

/-- A join of two scanned sets. -/
def twoScans : Graph :=
  .ofLists
    [.scan "scan_l" "db" "left", .scan "scan_r" "db" "right", .ofKind "join" .join,
      (Computation.ofKind "write" .write).setOutput "db" "out"]
    [.scan "l" "scan_l", .scan "r" "scan_r", .join "both" "l" "r" "join",
      .apply "out" "both" "write"]

/-- An input on each of the nodes; what the first side of the join writes is larger than both. -/
def sidedNodes : LocalCluster :=
  { (LocalCluster.empty.seed 0 "db" "left" 5000 4096).seed 1 "db" "right" 700 4096 with
    outputPages := (∅ : Table Nat).insert "job:both_broadcastData" 90000 }

theorem sidedNodes_keyed : sidedNodes.Keyed :=
  have keyed := (LocalCluster.keyed_empty.seed 0 "db" "left" 5000 4096).seed 1 "db" "right" 700 4096
  ⟨keyed.once, keyed.named⟩

theorem sidedNodes_foreseen
    : ∃ first stats report plan,
        Session.start "job" twoScans .standard = .ok first
        ∧ (LocalCluster.service.refresh twoNodes sidedNodes).1 = .ok stats
        ∧ (LocalCluster.service.run twoNodes first sidedNodes).1 = .ok report
        ∧ report.stages = 3
        ∧ planJob "job" twoScans .standard stats = .ok plan
        ∧ (LocalCluster.service.run twoNodes first sidedNodes).2.run.dispatched = plan.stages := by
  have runs : ((Session.start "job" twoScans .standard).toOption.bind fun first =>
      (LocalCluster.service.run twoNodes first sidedNodes).1.toOption.map RunReport.stages)
      = some 3 := by
    decide +kernel
  have known : (LocalCluster.service.refresh twoNodes sidedNodes).1.isOk = true := by
    decide +kernel
  obtain ⟨first, started, runs⟩ := Except.toOption_bind_eq_some_iff.mp runs
  obtain ⟨report, ran, stages⟩ := Except.toOption_map_eq_some_iff.mp runs
  obtain ⟨stats, asked⟩ := Except.isOk_iff.mp known
  have only : twoScans.ScansOnly := ⟨by decide, by decide⟩
  obtain ⟨plan, planned, sent, -⟩ :=
    run_foreseen started only (by decide) LocalCluster.actsOn trivial sidedNodes_keyed asked ran
  exact ⟨first, stats, report, plan, started, asked, ran, stages, planned, sent⟩

end DataflowPlan
