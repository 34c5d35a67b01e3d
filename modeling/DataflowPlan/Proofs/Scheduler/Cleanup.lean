import DataflowPlan.Proofs.Cluster.Recorded
import DataflowPlan.Proofs.Scheduler.Holdings

/-! What a run cleans up. Every set counts as live before it is created, and what is live at the
end is removed. A set is given up only where a round breaks off between the removals of what it has
consumed: by then the sets that are still to be removed count as live no more.
-/

namespace DataflowPlan

-----------------------------------------------------------------------------------------------
-- Requests for a set
-----------------------------------------------------------------------------------------------

/-- Whenever a node was asked to create the set, all nodes were asked to remove it later. -/
def Cleared (cluster : ClusterConfig) (asked : List Asked) (set : SetId) : Prop :=
  ∀ before node after,
    asked = before ++ .create node set :: after → ∀ other ∈ cluster.nodes, .remove other set ∈ after

/-- A node was asked to create the set, and none was asked to remove it later. -/
def Pending (asked : List Asked) (set : SetId) : Prop :=
  ∃ before node after,
    asked = before ++ .create node set :: after ∧ ∀ other, .remove other set ∉ after

section Requests

variable {cluster : ClusterConfig} {asked more : List Asked} {set : SetId}

theorem Pending.not_cleared (pending : Pending asked set) (nodes : cluster.nodes ≠ [])
    : ¬ Cleared cluster asked set := by
  intro cleared
  obtain ⟨before, node, after, whole, none⟩ := pending
  obtain ⟨other, member⟩ := List.exists_mem_of_ne_nil _ nodes
  exact none other (cleared before node after whole other member)

/-- What is not among the requests that come last was asked before them. -/
theorem append_of_not_mem {before after : List Asked} {one : Asked}
    (whole : asked ++ more = before ++ one :: after) (absent : one ∉ more)
    : ∃ rest, asked = before ++ one :: rest ∧ after = rest ++ more := by
  rcases List.append_eq_append_iff.mp whole with ⟨skipped, -, later⟩ | ⟨rest, earlier, later⟩
  · exact absurd (later ▸ List.mem_append_right skipped List.mem_cons_self) absent
  · cases rest with
    | nil =>
        rw [List.nil_append] at later
        exact absurd (later ▸ List.mem_cons_self) absent
    | cons first rest =>
        obtain ⟨rfl, rfl⟩ := List.cons.inj later
        exact ⟨rest, earlier, rfl⟩

/-- Requests that create the set nowhere leave it cleared, or clear it if they remove it from all
nodes.
-/
theorem cleared_append
    (cleared : Cleared cluster asked set ∨ ∀ other ∈ cluster.nodes, .remove other set ∈ more)
    (fresh : ∀ node, .create node set ∉ more)
    : Cleared cluster (asked ++ more) set := by
  intro before node after whole other member
  obtain ⟨rest, earlier, rfl⟩ := append_of_not_mem whole (fresh node)
  rcases cleared with cleared | removed
  · exact List.mem_append_left _ (cleared before node rest earlier other member)
  · exact List.mem_append_right _ (removed other member)

theorem Pending.append (pending : Pending asked set) (kept : ∀ other, .remove other set ∉ more)
    : Pending (asked ++ more) set := by
  obtain ⟨before, node, after, rfl, none⟩ := pending
  refine ⟨before, node, after ++ more, by simp, fun other member => ?_⟩
  rcases List.mem_append.mp member with earlier | later
  · exact none other earlier
  · exact kept other later

theorem pending_of_created (asked : List Asked) (nodes : cluster.nodes ≠ []) (set : SetId)
    : Pending (asked ++ cluster.nodes.map (Asked.create · set)) set := by
  obtain ⟨node, rest, some⟩ := List.exists_cons_of_ne_nil nodes
  exact ⟨asked, node, rest.map (Asked.create · set), by rw [some, List.map_cons], by simp⟩

end Requests

-----------------------------------------------------------------------------------------------
-- What a run keeps track of
-----------------------------------------------------------------------------------------------

section Runs

variable {σ : Type} {service : Service σ} {cluster : ClusterConfig} {lost : SetId → Prop}
  {e : Execution (Recorded σ)}

/-- All sets are cleared but the live ones, which are pending, and some that are lost: pending as
well, but no longer to be removed.
-/
structure Tracked (cluster : ClusterConfig) (lost : SetId → Prop) (e : Execution (Recorded σ))
    : Prop where
  cleared : ∀ set, set ∉ e.run.liveSets → ¬ lost set → Cleared cluster e.state.asked set
  pending
    : cluster.nodes ≠ [] → ∀ set, set ∈ e.run.liveSets ∨ lost set → Pending e.state.asked set
  apart : ∀ set, lost set → set ∉ e.run.liveSets ++ e.run.aggregationResults

/-- No set is lost. -/
abbrev AllTracked (cluster : ClusterConfig) (e : Execution (Recorded σ)) : Prop :=
  Tracked cluster (fun _ => False) e

/-- The requests create and remove nothing. -/
def Quiet (asked : List Asked) : Prop :=
  ∀ node set, .create node set ∉ asked ∧ .remove node set ∉ asked

theorem AllTracked.quiet (tracked : AllTracked cluster e) {after : Execution (Recorded σ)}
    (live : after.run.liveSets = e.run.liveSets) {more : List Asked} (quiet : Quiet more)
    (asked : after.state.asked = e.state.asked ++ more)
    : AllTracked cluster after := by
  refine ⟨?_, ?_, nofun⟩
  · intro set gone kept
    rw [live] at gone
    rw [asked]
    exact cleared_append (.inl (tracked.cleared set gone kept)) fun node => (quiet node set).1
  · intro nodes set here
    rw [live] at here
    rw [asked]
    exact (tracked.pending nodes set here).append fun node => (quiet node set).2

theorem quiet_nil : Quiet [] := by simp [Quiet]

/-- A request that creates and removes nothing leaves all tracked, whatever it answers. -/
theorem leads_ask_quiet {request : Request (Recorded σ) Unit} {more : List Asked}
    (quiet : Quiet more) (asked : ∀ r, (request r).2.asked = r.asked ++ more)
    : Step.Leads (AllTracked cluster) (.ask request) (AllTracked cluster) (AllTracked cluster) :=
  Step.leads_ask (fun _ tracked _ => tracked.quiet rfl quiet (asked _))
    fun _ tracked _ _ => tracked.quiet rfl quiet (asked _)

/-- A change of the run that leaves the live sets as they are leaves all tracked. -/
theorem leads_note_quiet {change : Run → Run} (live : ∀ run, (change run).liveSets = run.liveSets)
    : Step.Leads (AllTracked cluster) (.note change : Step (Recorded σ)) (AllTracked cluster)
        (AllTracked cluster) :=
  Step.leads_note fun _ tracked => tracked.quiet (live _) quiet_nil (List.append_nil _).symm

theorem leads_checkCancelled
    : Step.Leads (AllTracked cluster) service.recorded.checkCancelled (AllTracked cluster)
        (AllTracked cluster) :=
  Service.leads_checkCancelled
    (fun _ tracked => tracked.quiet rfl quiet_nil (List.append_nil _).symm) fun _ => id

theorem AllTracked.planNext (tracked : AllTracked cluster e)
    : AllTracked cluster (service.recorded.planNext cluster e).2 := by
  obtain ⟨run, state, -⟩ := service.recorded.planNext_spec cluster e
  refine tracked.quiet (congrArg Run.liveSets run) ?_
    ((congrArg Recorded.asked state).trans (asked_refresh service cluster e.state))
  simp [Quiet]

/-- A set that counts as live when it is created is tracked, also if not all nodes create it. -/
theorem AllTracked.create (tracked : AllTracked cluster e) (set : SetId) {run : Run}
    (live : run.liveSets = e.run.liveSets ++ [set])
    : AllTracked cluster
        ⟨e.session, run, (service.recorded.createEverywhere cluster set e.state).2⟩ := by
  have asked := asked_createEverywhere service cluster e.state set
  refine ⟨?_, ?_, nofun⟩
  · intro other gone kept
    simp only [live, List.mem_append, List.mem_singleton, not_or] at gone
    rw [asked]
    refine cleared_append (.inl (tracked.cleared other gone.1 kept)) fun node member => ?_
    obtain ⟨one, -, same⟩ := List.mem_map.mp member
    exact gone.2 (Asked.create.inj same).2.symm
  · intro nodes other here
    simp only [live, List.mem_append, List.mem_singleton, or_false] at here
    rw [asked]
    rcases here with before | rfl
    · exact (tracked.pending nodes other (.inl before)).append fun node => by simp
    · exact pending_of_created _ nodes other

theorem leads_createLive (set : SetId)
    : Step.Leads (AllTracked cluster) (service.recorded.createLive cluster set)
        (AllTracked cluster) (AllTracked cluster) := by
  -- the set counts as live before it is created
  have noted
      : Step.Leads (AllTracked cluster)
          (.note fun run => { run with liveSets := run.liveSets ++ [set] } : Step (Recorded σ))
          (fun e => ∃ before : Execution (Recorded σ),
            AllTracked cluster before ∧ before.session = e.session ∧ before.state = e.state
              ∧ e.run.liveSets = before.run.liveSets ++ [set])
          (AllTracked cluster) :=
    Step.leads_note fun e tracked => ⟨e, tracked, rfl, rfl, rfl⟩
  refine noted.andThen (Step.Leads.andThen ?_ (leads_note_quiet fun _ => rfl))
  refine Step.leads_ask ?_ ?_
  · rintro ⟨session, run, state⟩ ⟨before, tracked, rfl, rfl, live⟩ -
    exact tracked.create set live
  · rintro ⟨session, run, state⟩ ⟨before, tracked, rfl, rfl, live⟩ - -
    exact tracked.create set live

theorem leads_runStage (stage : Stage)
    : Step.Leads (AllTracked cluster) (service.recorded.runStage cluster stage)
        (AllTracked cluster) (AllTracked cluster) := by
  have sent
      : Step.Leads (AllTracked cluster) (.ask (service.recorded.dispatch cluster stage))
          (AllTracked cluster) (AllTracked cluster) :=
    leads_ask_quiet (by simp [Quiet]) fun r => asked_dispatch service cluster r stage
  refine leads_checkCancelled.andThen (Step.Leads.andThen (leads_note_quiet ?_)
    (sent.andThen (leads_note_quiet ?_)))
  · exact fun _ => rfl
  · exact fun _ => rfl

-----------------------------------------------------------------------------------------------
-- Rounds without and with their removals
-----------------------------------------------------------------------------------------------

/-- Carries out one increment, but for the removals at its end. -/
def Service.work {σ : Type} (service : Service σ) (cluster : ClusterConfig)
    (increment : Increment) : Step σ :=
  (Step.note fun run => { run with increments := run.increments + 1 }).andThen
    ((Step.forEach (service.createLive cluster) increment.intermediateSets).andThen
      (Step.forEach (service.runStage cluster) increment.stages))

/-- Removes the sets one after the other, up to a failure. -/
def Service.removals {σ : Type} (service : Service σ) (cluster : ClusterConfig)
    (sets : List SetId) : Step σ :=
  Step.forEach (fun set => Step.ask (service.removeEverywhere cluster set)) sets

/-- The live sets that nothing in the session reads any more. -/
def Execution.consumed {σ : Type} (e : Execution σ) : List SetId :=
  e.run.liveSets.filter (!e.session.hasConsumers ·.key)

/-- The run no longer minds what nothing in the session reads any more. -/
def Execution.keeping {σ : Type} (e : Execution σ) : Execution σ :=
  { e with run := e.run.keeping e.session }

theorem Service.carryOut_eq {σ : Type} (service : Service σ) (cluster : ClusterConfig)
    (increment : Increment) (e : Execution σ)
    : service.carryOut cluster increment e
        = (service.work cluster increment).andThen
            (fun e => service.removals cluster e.consumed e.keeping) e := by
  simp only [carryOut, work, Step.andThen_assoc]
  rfl

/-- All is tracked when the stages of a round have run, and if one of them does not. -/
theorem leads_work (increment : Increment)
    : Step.Leads (AllTracked cluster) (service.recorded.work cluster increment)
        (AllTracked cluster) (AllTracked cluster) := by
  have creates
      : Step.Leads (AllTracked cluster)
          (Step.forEach (service.recorded.createLive cluster) increment.intermediateSets)
          (AllTracked cluster) (AllTracked cluster) :=
    Step.leads_forEach (fun _ => AllTracked cluster) _ fun _ set _ _ => leads_createLive set
  have runs
      : Step.Leads (AllTracked cluster)
          (Step.forEach (service.recorded.runStage cluster) increment.stages)
          (AllTracked cluster) (AllTracked cluster) :=
    Step.leads_forEach (fun _ => AllTracked cluster) _ fun _ stage _ _ => leads_runStage stage
  refine Step.Leads.andThen (leads_note_quiet ?_) (creates.andThen runs)
  exact fun _ => rfl

/-- Some of the sets that a round has consumed are removed; the others are lost until they are. -/
structure Removing (cluster : ClusterConfig) (consumed done : List SetId)
    (e : Execution (Recorded σ)) : Prop where
  tracked : Tracked cluster (fun set => set ∈ consumed ∧ set ∉ done) e
  gone : ∀ set ∈ consumed, set ∉ e.run.liveSets ++ e.run.aggregationResults

theorem AllTracked.removing (tracked : AllTracked cluster e)
    : Removing cluster e.consumed [] e.keeping := by
  have gone : ∀ set ∈ e.consumed,
      set ∉ e.keeping.run.liveSets ++ e.keeping.run.aggregationResults := by
    intro set consumed kept
    have unread := (List.mem_filter.mp consumed).2
    rcases List.mem_append.mp kept with live | result
    · simp [(List.mem_filter.mp live).2] at unread
    · simp [(List.mem_filter.mp result).2] at unread
  refine ⟨⟨?_, ?_, fun set lost => gone set lost.1⟩, gone⟩
  · intro set unkept unlost
    refine tracked.cleared set (fun live => ?_) id
    cases read : e.session.hasConsumers set.key with
    | true => exact unkept (List.mem_filter.mpr ⟨live, read⟩)
    | false => exact unlost ⟨List.mem_filter.mpr ⟨live, by simp [read]⟩, List.not_mem_nil⟩
  · intro nodes set here
    refine tracked.pending nodes set (.inl ?_)
    rcases here with kept | ⟨consumed, -⟩
    · exact (List.mem_filter.mp kept).1
    · exact (List.mem_filter.mp consumed).1

/-- One more set is removed, whether or not all nodes say so. -/
theorem Removing.remove {consumed done : List SetId} (removing : Removing cluster consumed done e)
    {set : SetId} (listed : set ∈ consumed)
    : Removing cluster consumed (done ++ [set])
        { e with state := (service.recorded.removeEverywhere cluster set e.state).2 } := by
  have asked := asked_removeEverywhere service cluster e.state set
  obtain ⟨⟨cleared, pending, apart⟩, gone⟩ := removing
  refine ⟨⟨?_, ?_, fun other lost => gone other lost.1⟩, gone⟩
  · intro other unkept unlost
    rw [asked]
    refine cleared_append ?_ (by simp)
    by_cases same : other = set
    · subst same
      exact .inr fun node member => List.mem_map_of_mem member
    · refine .inl (cleared other unkept fun lost => unlost ⟨lost.1, ?_⟩)
      simpa [same] using lost.2
  · intro nodes other here
    have differs : other ≠ set := by
      rintro rfl
      rcases here with kept | ⟨-, left⟩
      · exact gone other listed (List.mem_append_left _ kept)
      · simp at left
    rw [asked]
    refine (pending nodes other ?_).append fun node => by simp [Ne.symm differs]
    refine here.imp_right fun lost => ⟨lost.1, fun before => lost.2 ?_⟩
    exact List.mem_append_left _ before

/-- Removals that go well leave the sets that are still to be removed lost. -/
theorem Removing.removals {consumed done : List SetId} (within : ∀ set ∈ done, set ∈ consumed)
    {start after : Execution (Recorded σ)} (removing : Removing cluster consumed [] start)
    (removals : service.recorded.removals cluster done start = (.ok (), after))
    : Removing cluster consumed done after := by
  have leads
      : Step.Leads (Removing cluster consumed []) (service.recorded.removals cluster done)
          (Removing cluster consumed done) (fun _ => True) := by
    refine Step.leads_forEach (Removing cluster consumed) done fun earlier set rest whole => ?_
    have listed := within set (by simp [whole])
    exact Step.leads_ask (fun e before _ => before.remove listed) fun _ _ _ _ => trivial
  exact leads.of_ok removing removals

/-- If one of the removals of a round is the first to fail, what comes after it is lost. -/
theorem AllTracked.broken (tracked : AllTracked cluster e) {removed left : List SetId}
    {failing : SetId} {partway : Execution (Recorded σ)}
    (consumed : e.consumed = removed ++ failing :: left)
    (removals : service.recorded.removals cluster removed e.keeping = (.ok (), partway))
    : Tracked cluster (fun set => set ∈ e.consumed ∧ set ∉ removed ++ [failing])
        { partway with
          state := (service.recorded.removeEverywhere cluster failing partway.state).2 } := by
  have within : ∀ set ∈ removed, set ∈ e.consumed := fun set before =>
    consumed ▸ List.mem_append_left _ before
  have listed : failing ∈ e.consumed := consumed ▸ List.mem_append_right _ List.mem_cons_self
  exact ((tracked.removing.removals within removals).remove listed).tracked

-----------------------------------------------------------------------------------------------
-- Sets that are given up
-----------------------------------------------------------------------------------------------

/-- A round breaks off with the error while it removes the sets that it has consumed, and this set
was to be removed after the one that fails.
-/
inductive Service.GivesUp {σ : Type} (service : Service σ) (cluster : ClusterConfig)
    (begin : Execution σ) (set : SetId) (error : ExecError) : Prop
  | broken {out e begun increment ready worked removed failing left partway}
    (rounds : service.Rounds cluster begin out e)
    (sources : e.session.hasSources = true)
    (checked : service.checkCancelled e = (.ok (), begun))
    (planned : service.planNext cluster begun = (.ok increment, ready))
    (ran : service.work cluster increment ready = (.ok (), worked))
    (consumed : worked.consumed = removed ++ failing :: left)
    (removals : service.removals cluster removed worked.keeping = (.ok (), partway))
    (fails : (service.removeEverywhere cluster failing partway.state).1 = .error error)
    (listed : set ∈ left)
    (kept : set ∉ removed ++ [failing])

/-- A removal only fails if there are nodes. -/
theorem nodes_of_removeEverywhere {σ : Type} {service : Service σ} {set : SetId} {state : σ}
    {error : ExecError} (fails : (service.removeEverywhere cluster set state).1 = .error error)
    : cluster.nodes ≠ [] := by
  intro none
  simp [Service.removeEverywhere, none, askAll, firstError] at fails

variable {begin : Execution (Recorded σ)}

theorem AllTracked.ready (tracked : AllTracked cluster e) {begun ready : Execution (Recorded σ)}
    {outcome : Except ExecError Increment}
    (checked : service.recorded.checkCancelled e = (.ok (), begun))
    (planned : service.recorded.planNext cluster begun = (outcome, ready))
    : AllTracked cluster ready := by
  have plans : AllTracked cluster (service.recorded.planNext cluster begun).2 :=
    (leads_checkCancelled.of_ok tracked checked).planNext
  rwa [planned] at plans

/-- Between rounds all is tracked. -/
theorem AllTracked.rounds (tracked : AllTracked cluster begin) {out : Increment}
    (rounds : service.recorded.Rounds cluster begin out e)
    : AllTracked cluster e := by
  induction rounds with
  | start => exact tracked
  | next before round ih =>
      cases round with
      | @carried begun ready increment after sources checked planned some done =>
          rw [Service.carryOut_eq, Step.andThen] at done
          split at done
          · next worked ran =>
              have works := (leads_work _).of_ok (ih.ready checked planned) ran
              have removed := (works.removing.removals (fun _ => id) done).tracked
              refine ⟨?_, ?_, fun _ => False.elim⟩
              · exact fun set gone _ => removed.cleared set gone fun lost => lost.2 lost.1
              · exact fun nodes set here =>
                  removed.pending nodes set (here.imp_right False.elim)
          · simp at done

/-- Where a set is given up, the rounds end with the error, and the set is lost. -/
theorem AllTracked.givesUp (tracked : AllTracked cluster begin) {set : SetId} {error : ExecError}
    (givesUp : service.recorded.GivesUp cluster begin set error)
    : cluster.nodes ≠ []
      ∧ ∃ lost after,
          service.recorded.drive cluster begin.session.topology.arena.activeCount begin
            = (.error error, after)
          ∧ Tracked cluster lost after
          ∧ lost set := by
  cases givesUp with
  | @broken out e begun increment ready worked removed failing left partway rounds sources checked
      planned ran consumed removals fails listed kept =>
      have works := (leads_work increment).of_ok ((tracked.rounds rounds).ready checked planned) ran
      refine ⟨nodes_of_removeEverywhere fails, _, _, ?_, works.broken consumed removals, ?_, kept⟩
      · refine rounds.drive_of_broken sources checked planned
          (Service.planned_of_planNext sources checked planned).1 ?_
        rw [Service.carryOut_eq, Step.andThen, ran]
        exact Step.forEach_eq_error_iff.mpr ⟨removed, failing, left, partway, consumed, removals,
          Prod.ext fails rfl⟩
      · rw [consumed]
        exact List.mem_append_right _ (List.mem_cons_of_mem _ listed)

/-- However the rounds end, every set that is lost then is given up. -/
theorem AllTracked.ends (tracked : AllTracked cluster begin)
    {result : Except ExecError Unit × Execution (Recorded σ)}
    (ends : service.recorded.Ends cluster begin result)
    : ∃ lost,
        Tracked cluster lost result.2
        ∧ ∀ set, lost set → ∃ error, service.recorded.GivesUp cluster begin set error := by
  cases ends with
  | done rounds idle => exact ⟨_, tracked.rounds rounds, nofun⟩
  | cancelled rounds sources checked =>
      exact ⟨_, leads_checkCancelled.of_error (tracked.rounds rounds) checked, nofun⟩
  | unplanned rounds sources checked fails =>
      exact ⟨_, (tracked.rounds rounds).ready checked fails, nofun⟩
  | broken rounds sources checked planned some fails =>
      have ready := (tracked.rounds rounds).ready checked planned
      rw [Service.carryOut_eq, Step.andThen] at fails
      split at fails
      · next worked ran =>
          have works := (leads_work _).of_ok ready ran
          obtain ⟨removed, failing, left, partway, consumed, removals, broken⟩ :=
            Step.forEach_eq_error_iff.mp fails
          obtain ⟨failed, rfl⟩ := Prod.mk.inj broken
          refine ⟨_, works.broken consumed removals, ?_⟩
          rintro set ⟨listed, kept⟩
          refine ⟨_, .broken rounds sources checked planned ran consumed removals failed ?_ kept⟩
          rw [consumed] at listed
          simp only [List.mem_append, List.mem_cons, List.not_mem_nil, or_false, not_or]
            at listed kept
          tauto
      · next error next ran =>
          obtain ⟨-, rfl⟩ := Prod.mk.inj fails
          exact ⟨_, (leads_work _).of_error ready ran, nofun⟩

/-- When all that is still minded is removed in the end, only what is lost is not cleared. -/
theorem Tracked.removeAll (tracked : Tracked cluster lost e) {set : SetId}
    (nodes : lost set → cluster.nodes ≠ []) (outcome : Except ExecError Unit)
    : ¬ Cleared cluster
          (service.recorded.removeAll cluster outcome
            (e.run.liveSets ++ e.run.aggregationResults) e.state).2.asked
          set
        ↔ lost set := by
  rw [asked_removeAll]
  constructor
  · intro uncleared
    by_contra kept
    refine uncleared (cleared_append ?_ (by simp))
    by_cases live : set ∈ e.run.liveSets
    · exact .inr fun other member => List.mem_flatMap.mpr
        ⟨set, List.mem_append_left _ live, List.mem_map_of_mem member⟩
    · exact .inl (tracked.cleared set live kept)
  · intro gone
    refine Pending.not_cleared (Pending.append ?_ fun other member => ?_) (nodes gone)
    · exact tracked.pending (nodes gone) set (.inr gone)
    · obtain ⟨minded, listed, asked⟩ := List.mem_flatMap.mp member
      obtain ⟨node, -, same⟩ := List.mem_map.mp asked
      obtain ⟨-, rfl⟩ := Asked.remove.inj same
      exact tracked.apart minded gone listed

end Runs

/-- What a run cleans up: of all sets that it asks any node to create, it asks every node to remove
all but those that a failing removal in one of its rounds makes it give up. Then that failure is
what the run comes to.
-/
structure CleanupTerms {σ : Type} (service : Service σ) (cluster : ClusterConfig)
    (first : Session) (state : σ) : Prop where
  /-- The run does the same with its requests recorded. -/
  recorded
    : service.run cluster first state
        = ((service.recorded.run cluster first (.start state)).1,
            (service.recorded.run cluster first (.start state)).2.map Recorded.state)
  uncleared
    : ∀ set,
        ¬ Cleared cluster (service.recorded.run cluster first (.start state)).2.state.asked set
          ↔ ∃ error, service.recorded.GivesUp cluster ⟨first, .start, .start state⟩ set error
  fails
    : ∀ set error,
        service.recorded.GivesUp cluster ⟨first, .start, .start state⟩ set error →
          (service.run cluster first state).1 = .error error

/-- On every service, whichever of its requests fail and whenever the job is cancelled, a run cleans
up but for what it gives up.
Witness: every set that was created is live, or removed, or lost since a removal failed before it;
each part of a round keeps this, and the last removals leave what is lost.
-/
theorem cleanupTerms_of_run {σ : Type} (service : Service σ) (cluster : ClusterConfig)
    (first : Session) (state : σ)
    : CleanupTerms service cluster first state := by
  have mirrored : service.run cluster first state = (_, _) :=
    service.mirroredBy_recorded.run cluster first (.start state)
  have tracked : AllTracked cluster (⟨first, .start, .start state⟩ : Execution (Recorded σ)) := by
    refine ⟨fun set _ _ before node after whole => ?_, fun _ set here => ?_, nofun⟩
    · simp [Recorded.start, Recorded.asked] at whole
    · simp [Run.start] at here
  refine ⟨mirrored, fun set => ⟨fun uncleared => ?_, ?_⟩, ?_⟩
  · obtain ⟨lost, after, givenUp⟩ := tracked.ends (Service.Rounds.start.ends (Nat.le_refl _))
    refine givenUp set ((after.removeAll (fun gone => ?_) (.ok ())).mp uncleared)
    obtain ⟨error, givesUp⟩ := givenUp set gone
    exact (tracked.givesUp givesUp).1
  · rintro ⟨error, givesUp⟩
    obtain ⟨nodes, lost, after, outcome, left, gone⟩ := tracked.givesUp givesUp
    have swept
        : ¬ Cleared cluster
            (service.recorded.removeAll cluster (.ok ())
              (after.run.liveSets ++ after.run.aggregationResults) after.state).2.asked
            set :=
      (left.removeAll (fun _ => nodes) (.ok ())).mpr gone
    rw [Service.run]
    simpa only [outcome] using swept
  · intro set error givesUp
    obtain ⟨-, lost, after, outcome, -, -⟩ := tracked.givesUp givesUp
    rw [mirrored, Service.run]
    simp [outcome, bind, Except.bind]

/-- Sums over a set, which are shuffled and combined on their way. -/
def combinedSums : Graph :=
  .ofLists
    [.scan "scan" "db" "data",
      { (Computation.ofKind "sum" .aggregation).setOutput "db" "sums" with usesCombiner := true }]
    [.scan "rows" "scan", .aggregate "sums" "rows" "sum"]

def loneNode : ClusterNode :=
  ⟨0, "localhost", 8108, ClusterNode.defaultCores, ClusterNode.defaultMemory⟩

/-- A node that does not come to remove what was shuffled. -/
def stuckNode : WatchedCluster :=
  { WatchedCluster.ofCluster (LocalCluster.empty.seed 0 "db" "data" 3 4096) with
    failRemove := some (0, "job:sums_aggregationData") }

/-- The data of the combiner is created on the node, and the node is never asked to remove it, since
the set before it is not removed.
-/
theorem stuckNode_abandons
    : ∃ first set,
        Session.start "job" combinedSums .standard = .ok first
        ∧ .create loneNode set
          ∈ (WatchedCluster.service.recorded.run ⟨0.75, [loneNode]⟩ first
              (.start stuckNode)).2.state.asked
        ∧ .remove loneNode set
          ∉ (WatchedCluster.service.recorded.run ⟨0.75, [loneNode]⟩ first
              (.start stuckNode)).2.state.asked := by
  let set := SetId.intermediate "job" "sums_combinerData" PlannerConfig.defaultPageSize
  have runs : ((Session.start "job" combinedSums .standard).toOption.map fun first =>
      let asked := (WatchedCluster.service.recorded.run ⟨0.75, [loneNode]⟩ first
        (.start stuckNode)).2.state.asked
      (decide (.create loneNode set ∈ asked), decide (.remove loneNode set ∈ asked)))
      = some (true, false) := by
    decide +kernel
  obtain ⟨first, outcome, runs⟩ := Except.toOption_map_eq_some_iff.mp runs
  simp only [Prod.mk.injEq, decide_eq_true_eq, decide_eq_false_iff_not] at runs
  exact ⟨first, set, outcome, runs.1, runs.2⟩

end DataflowPlan
