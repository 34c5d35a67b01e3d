import DataflowPlan.Proofs.Cluster.Reports
import DataflowPlan.Proofs.Scheduler.Lifecycle
import DataflowPlan.Proofs.Session.Drops

/-! What becomes of sets that nodes held before a run. A run removes sets by their keys, and counts
a set as its own before it is made: one that was there already is kept by every run but one that
fails to make its own set of the same key.
-/

namespace DataflowPlan

/-- The stage leaves the hash table of an aggregate under the key. -/
def Stage.Leaves (stage : Stage) (key : String) : Prop :=
  ∃ set, stage.sink? = some set ∧ set.isAggregationResult = true ∧ set.key = key

theorem Stage.Leaves.writes {stage : Stage} {key : String} (leaves : stage.Leaves key)
    : stage.Writes key := by
  obtain ⟨set, sink, -, same⟩ := leaves
  exact ⟨set, sink, same⟩

namespace Run

variable {run : Run} {key : String}

theorem covers_addLive {set : SetId}
    : ({ run with liveSets := run.liveSets ++ [set] } : Run).Covers key
        ↔ run.Covers key ∨ set.key = key := by
  simp only [Covers, List.mem_append, List.mem_singleton, or_and_right, exists_or,
    exists_eq_left]
  exact or_right_comm

theorem covers_addResults {stage : Stage}
    : ({ run with
          aggregationResults :=
            run.aggregationResults
              ++ (stage.sink?.filter SetId.isAggregationResult).toList } : Run).Covers key
        ↔ run.Covers key ∨ stage.Leaves key := by
  simp only [Covers, Stage.Leaves, List.mem_append, Option.mem_toList, Option.filter_eq_some_iff,
    or_and_right, exists_or, and_assoc, or_assoc]

end Run

namespace ExecError

/-- The failures that leave a set of the key among those that a run removes, though some nodes may
not have it from the run: the set was to be created where there was one, or a stage was to leave a
hash table there and failed.
-/
inductive Orphans (planned : List Stage) (key : String) : ExecError → Prop
  | taken (node : Nat) : Orphans planned key (.storage key node .exists)
  | unfinished {stage : Stage} (node : Nat) (cause : ExecError) (listed : stage ∈ planned)
    (leaves : stage.Leaves key)
    : Orphans planned key (.stageFailed stage.id node cause)

variable {planned : List Stage} {key : String}

theorem orphans_storage {made : String} {node : Nat}
    : (storage made node .exists).Orphans planned key ↔ made = key := by
  constructor
  · rintro ⟨⟩
    rfl
  · rintro rfl
    exact .taken node

/-- Stages that are numbered without gaps are told apart by their numbers. -/
theorem orphans_stageFailed {stage : Stage} {node : Nat} {cause : ExecError}
    (numbered : planned.map Stage.id = (List.range planned.length).map StageId.mk)
    (listed : stage ∈ planned)
    : (stageFailed stage.id node cause).Orphans planned key ↔ stage.Leaves key := by
  constructor
  · generalize same : stageFailed stage.id node cause = error
    rintro (_ | ⟨_, _, other, leaves⟩)
    · simp at same
    · obtain ⟨id, -, -⟩ := stageFailed.inj same
      have distinct : (planned.map Stage.id).Nodup := by
        rw [numbered]
        exact List.nodup_range.map fun _ _ equal => StageId.mk.inj equal
      exact List.inj_on_of_nodup_map distinct listed other id ▸ leaves
  · exact fun leaves => .unfinished node cause listed leaves

end ExecError

/-- A set that a node holds before a run, in the simulated cluster behind a service. -/
structure PriorSet (σ : Type) where
  view : σ → LocalCluster
  fit : σ → Prop
  cluster : ClusterConfig
  before : LocalCluster
  node : Nat
  key : String

namespace PriorSet

variable {σ : Type} (prior : PriorSet σ)

/-- The node is one of those that the run uses. -/
def Used : Prop := prior.node ∈ prior.cluster.nodes.map ClusterNode.id

/-- No stage that the node has run since then writes the set. -/
def Untouched (state : σ) : Prop :=
  prior.before.Unwritten (prior.view state) prior.node prior.key

/-- The set is as it was, if no stage of the run has written it on its node; then, if the run uses
that node, no stage that has run anywhere writes such a set, and the run is about to remove it only
if the claim holds.
-/
structure Stands (ran : List Stage) (claim : Prop) (e : Execution σ) : Prop where
  fits : prior.fit e.state
  spares : LocalCluster.Spares prior.node prior.key prior.before (prior.view e.state)
  apart
    : prior.Untouched e.state → prior.Used → ∀ stage ∈ ran, ¬ stage.Writes prior.key
  claimed : prior.Untouched e.state → prior.Used → (e.run.Covers prior.key ↔ claim)

/-- None of the sets is of the key, if the set is as it was on a node that the run uses. -/
def ApartFrom (sets : List SetId) (state : σ) : Prop :=
  prior.Untouched state → prior.Used → ∀ set ∈ sets, prior.key ≠ set.key

/-- The set stands after the rounds of a run that fail with the error. -/
def Abandoned (first : Session) (error : ExecError) (e : Execution σ) : Prop :=
  ∃ out,
    first.LeadsTo out e.session ∧ prior.Stands [] (error.Orphans out.stages prior.key) e

/-- The set stands while what increments in turn have planned is carried out. -/
def Standing (first : Session) (out : Increment) (ran : List Stage) (claim : Prop)
    (e : Execution σ) : Prop :=
  first.LeadsTo out e.session ∧ prior.Stands ran claim e

variable {prior} {ran : List Stage} {claim other : Prop} {e : Execution σ} {set : SetId}
  {stage : Stage}

theorem ranOn_eq (prior : PriorSet σ) {state later : σ}
    (executed : (prior.view later).executed = (prior.view state).executed)
    : (prior.view later).ranOn prior.node = (prior.view state).ranOn prior.node := by
  rw [LocalCluster.ranOn, executed, LocalCluster.ranOn]

theorem untouched_iff (prior : PriorSet σ) {state later : σ}
    (executed : (prior.view later).executed = (prior.view state).executed)
    : prior.Untouched later ↔ prior.Untouched state := by
  rw [Untouched, LocalCluster.Unwritten, prior.ranOn_eq executed, Untouched,
    LocalCluster.Unwritten]

theorem Stands.hasSet (stands : prior.Stands ran claim e)
    (held : prior.before.hasSet prior.node prior.key = true)
    (untouched : prior.Untouched e.state)
    : (prior.view e.state).hasSet prior.node prior.key = true := by
  rw [LocalCluster.hasSet, stands.spares.same untouched]
  exact held

/-- While the nodes run nothing, all that matters is that they leave the set alone, and what the run
is about to remove.
-/
theorem Stands.of_executed (stands : prior.Stands ran claim e) {later : Execution σ}
    (executed : (prior.view later.state).executed = (prior.view e.state).executed)
    (fits : prior.fit later.state)
    (same
      : prior.Untouched e.state →
          (prior.view later.state).report? prior.node prior.key
            = (prior.view e.state).report? prior.node prior.key)
    (claims
      : prior.Untouched e.state →
          prior.Used →
            (e.run.Covers prior.key ↔ claim) → (later.run.Covers prior.key ↔ other))
    : prior.Stands ran other later := by
  have untouched := prior.untouched_iff executed
  refine ⟨fits, ⟨prior.ranOn_eq executed ▸ stands.spares.more, fun unwritten => ?_⟩, ?_, ?_⟩
  · have before := untouched.mp unwritten
    exact (same before).trans (stands.spares.same before)
  · exact fun unwritten => stands.apart (untouched.mp unwritten)
  · exact fun unwritten used =>
      claims (untouched.mp unwritten) used (stands.claimed (untouched.mp unwritten) used)

/-- The same cluster is in view. -/
theorem Stands.of_view (stands : prior.Stands ran claim e) {later : Execution σ}
    (view : prior.view later.state = prior.view e.state) (fits : prior.fit later.state)
    (claims : (e.run.Covers prior.key ↔ claim) → (later.run.Covers prior.key ↔ other))
    : prior.Stands ran other later :=
  stands.of_executed (by rw [view]) fits (fun _ => by rw [view]) fun _ _ => claims

theorem Stands.forget (stands : prior.Stands ran claim e) : prior.Stands [] claim e :=
  ⟨stands.fits, stands.spares, by simp, stands.claimed⟩

/-- What fails with an error that orphans no set leaves the run as it was. -/
theorem Stands.abandoned (stands : prior.Stands ran False e) {first : Session} {out : Increment}
    {error : ExecError} (leads : first.LeadsTo out e.session)
    (owned : ¬ error.Orphans out.stages prior.key)
    : prior.Abandoned first error e := by
  refine ⟨out, leads, stands.fits, stands.spares, by simp, fun untouched used => ?_⟩
  rw [stands.claimed untouched used]
  simp [owned]

-----------------------------------------------------------------------------------------------
-- One round
-----------------------------------------------------------------------------------------------

section Round

variable {service : Service σ} (acts : service.ActsOn prior.view prior.fit) {first : Session}
  {out : Increment} (held : prior.before.hasSet prior.node prior.key = true)

include acts

theorem leads_checkCancelled
    : Step.LeadsOr (prior.Standing first out ran False) service.checkCancelled
        (prior.Standing first out ran False) (prior.Abandoned first) := by
  have kept
      : ∀ e,
          prior.Standing first out ran False e →
            prior.Standing first out ran False
              { e with state := (service.isCancelled e.state).2 } := by
    rintro e ⟨leads, stands⟩
    obtain ⟨view, fits⟩ := acts.isCancelled e.state stands.fits
    exact ⟨leads, stands.of_view view fits id⟩
  refine Service.leadsOr_checkCancelled kept fun e standing => ?_
  exact (kept e standing).2.abandoned (kept e standing).1 nofun

include held

/-- A set that is created everywhere is not the one that was there, and one that is not created
everywhere was there already.
-/
theorem leads_createLive
    : Step.LeadsOr (prior.Standing first out ran False)
        (service.createLive prior.cluster set) (prior.Standing first out ran False)
        (prior.Abandoned first) := by
  have noting
      : Step.LeadsOr (prior.Standing first out ran False)
          (Step.note fun run => { run with liveSets := run.liveSets ++ [set] })
          (prior.Standing first out ran (set.key = prior.key)) (prior.Abandoned first) := by
    refine Step.leadsOr_note fun e ⟨leads, stands⟩ => ⟨leads, ?_⟩
    refine stands.of_view rfl stands.fits fun none => ?_
    rw [Run.covers_addLive, none, false_or]
  have creating : ∀ e, prior.Standing first out ran (set.key = prior.key) e → ∀ other,
      (prior.Untouched e.state → prior.Used → (set.key = prior.key ↔ other)) →
        prior.Stands ran other
          { e with state := (service.createEverywhere prior.cluster set e.state).2 } := by
    rintro e ⟨-, stands⟩ other claims
    obtain ⟨executed, fits⟩ := acts.runsOn.createEverywhere prior.cluster set e.state stands.fits
    refine stands.of_executed executed fits (fun untouched => ?_) fun untouched used covers => ?_
    · rw [(acts.createEverywhere prior.cluster set e.state stands.fits).2.1]
      exact LocalCluster.report?_createEverywhere _ (.inl (stands.hasSet held untouched))
    · exact covers.trans (claims untouched used)
  have asking
      : Step.LeadsOr (prior.Standing first out ran (set.key = prior.key))
          (Step.ask (service.createEverywhere prior.cluster set))
          (prior.Standing first out ran False) (prior.Abandoned first) := by
    refine Step.leadsOr_ask (fun e standing ok => ⟨standing.1, ?_⟩) fun e standing error fails => ?_
    all_goals
      have answer := (acts.createEverywhere prior.cluster set e.state standing.2.fits).1
    · refine creating e standing False fun untouched used => iff_false_intro fun same => ?_
      have there := standing.2.hasSet held untouched
      rw [← same, LocalCluster.not_hasSet_of_createEverywhere _ (answer.symm.trans ok) used]
        at there
      simp at there
    · obtain ⟨node, rfl⟩ := LocalCluster.createEverywhere_error _ (answer.symm.trans fails)
      refine ⟨out, standing.1, (creating e standing _ fun _ _ => ?_).forget⟩
      exact ExecError.orphans_storage.symm
  have counting
      : Step.LeadsOr (prior.Standing first out ran False)
          (Step.note fun run => { run with setsCreated := run.setsCreated + 1 })
          (prior.Standing first out ran False) (prior.Abandoned first) :=
    Step.leadsOr_note fun e ⟨leads, stands⟩ => ⟨leads, stands.of_view rfl stands.fits id⟩
  exact noting.andThen (asking.andThen counting)

omit held in
/-- A stage leaves the set alone unless it writes it: what it drops, an earlier one wrote. -/
theorem Stands.dispatch (stands : prior.Stands ran claim e)
    (drops : stage.Drops prior.key → ∃ earlier ∈ ran, earlier.Writes prior.key)
    : prior.fit (service.dispatch prior.cluster stage e.state).2
      ∧ (prior.view e.state).ranOn prior.node
        <+: (prior.view (service.dispatch prior.cluster stage e.state).2).ranOn prior.node
      ∧ LocalCluster.Spares prior.node prior.key prior.before
          (prior.view (service.dispatch prior.cluster stage e.state).2) := by
  obtain ⟨-, view, fits⟩ := acts.dispatch prior.cluster stage e.state stands.fits
  rw [view]
  have more := LocalCluster.ranOn_dispatch (n := prior.node) prior.cluster stage
    (prior.view e.state)
  refine ⟨fits, more, stands.spares.more.trans more, fun unwritten => ?_⟩
  have before : prior.Untouched e.state := unwritten.earlier more
  have keeps : prior.Used → ¬ stage.Drops prior.key := by
    intro used dropped
    obtain ⟨earlier, member, writes⟩ := drops dropped
    exact stands.apart before used earlier member writes
  rw [(LocalCluster.spares_dispatch prior.cluster keeps _).same
    (unwritten.later stands.spares.more), stands.spares.same before]

omit held in
theorem leads_runStage (numbered : out.stages.map Stage.id
      = (List.range out.stages.length).map StageId.mk) (listed : stage ∈ out.stages)
    (drops : stage.Drops prior.key → ∃ earlier ∈ ran, earlier.Writes prior.key)
    : Step.LeadsOr (prior.Standing first out ran False)
        (service.runStage prior.cluster stage) (prior.Standing first out (ran ++ [stage]) False)
        (prior.Abandoned first) := by
  have noting
      : Step.LeadsOr (prior.Standing first out ran False)
          (Step.note fun run =>
            { run with
              aggregationResults :=
                run.aggregationResults
                  ++ (stage.sink?.filter SetId.isAggregationResult).toList })
          (prior.Standing first out ran (stage.Leaves prior.key)) (prior.Abandoned first) := by
    refine Step.leadsOr_note fun e ⟨leads, stands⟩ => ⟨leads, ?_⟩
    refine stands.of_view rfl stands.fits fun none => ?_
    rw [Run.covers_addResults, none, false_or]
  have asking
      : Step.LeadsOr (prior.Standing first out ran (stage.Leaves prior.key))
          (Step.ask (service.dispatch prior.cluster stage))
          (prior.Standing first out (ran ++ [stage]) False) (prior.Abandoned first) := by
    refine Step.leadsOr_ask ?_ ?_
    · rintro e ⟨leads, stands⟩ ok
      obtain ⟨fits, more, spares⟩ := stands.dispatch acts drops
      obtain ⟨answer, view, -⟩ := acts.dispatch prior.cluster stage e.state stands.fits
      have unwritten
          : prior.Untouched (service.dispatch prior.cluster stage e.state).2 →
              prior.Used → ¬ stage.Writes prior.key := by
        intro untouched used writes
        have later := untouched.later stands.spares.more
        rw [view] at later
        exact LocalCluster.not_unwritten_of_dispatch _ (answer.symm.trans ok) used writes later
      refine ⟨leads, fits, spares, fun untouched used other member => ?_,
        fun untouched used => ?_⟩
      · rcases List.mem_append.mp member with earlier | last
        · exact stands.apart (untouched.earlier more) used other earlier
        · exact List.mem_singleton.mp last ▸ unwritten untouched used
      · refine (stands.claimed (untouched.earlier more) used).trans (iff_false_intro ?_)
        exact fun leaves => unwritten untouched used leaves.writes
    · rintro e ⟨leads, stands⟩ error fails
      obtain ⟨fits, more, spares⟩ := stands.dispatch acts drops
      obtain ⟨answer, -, cause, -, rfl⟩ := firstError_eq_error fails
      refine ⟨out, leads, fits, spares, by simp, fun untouched used => ?_⟩
      rw [ExecError.orphans_stageFailed numbered listed]
      exact stands.claimed (untouched.earlier more) used
  have counting
      : Step.LeadsOr (prior.Standing first out (ran ++ [stage]) False)
          (Step.note fun run => { run with dispatched := run.dispatched ++ [stage] })
          (prior.Standing first out (ran ++ [stage]) False) (prior.Abandoned first) :=
    Step.leadsOr_note fun e ⟨leads, stands⟩ => ⟨leads, stands.of_view rfl stands.fits id⟩
  exact (leads_checkCancelled acts).andThen (noting.andThen (asking.andThen counting))

omit held in
theorem leads_remove (sets : List SetId)
    : Step.LeadsOr
        (fun e => prior.Standing first out ran False e ∧ prior.ApartFrom sets e.state)
        (Step.forEach (fun set => Step.ask (service.removeEverywhere prior.cluster set)) sets)
        (fun e => prior.Standing first out ran False e ∧ prior.ApartFrom sets e.state)
        (prior.Abandoned first) := by
  refine Step.leadsOr_forEach
    (fun _ e => prior.Standing first out ran False e ∧ prior.ApartFrom sets e.state) sets
    fun done set rest whole => Step.leadsOr_ask ?_ ?_
  · rintro e ⟨⟨leads, stands⟩, apart⟩ -
    have listed : set ∈ sets := by simp [whole]
    obtain ⟨executed, fits⟩ := acts.runsOn.removeEverywhere prior.cluster set e.state stands.fits
    refine ⟨⟨leads, stands.of_executed executed fits (fun untouched => ?_) fun _ _ => id⟩, ?_⟩
    · rw [(acts.removeEverywhere prior.cluster set e.state stands.fits).2.1,
        LocalCluster.report?_removeEverywhere, if_neg]
      rintro ⟨used, same⟩
      exact apart untouched used set listed same
    · exact fun untouched => apart ((prior.untouched_iff executed).mp untouched)
  · rintro e ⟨⟨-, stands⟩, -⟩ error fails
    rw [(acts.removeEverywhere prior.cluster set e.state stands.fits).1,
      LocalCluster.removeEverywhere_ok] at fails
    simp at fails

omit held in
/-- What a round removes is what the run had counted as its own, so none of it has the key. -/
theorem leads_removeConsumed
    : Step.LeadsOr (prior.Standing first out ran False)
        (service.removeConsumed prior.cluster) (prior.Standing first out ran False)
        (prior.Abandoned first) := by
  rintro e ⟨leads, stands⟩
  have kept : prior.Stands ran False { e with run := e.run.keeping e.session } := by
    refine stands.of_view rfl stands.fits fun none => iff_false_intro ?_
    rintro ⟨set, member, same⟩
    refine none.mp ⟨set, ?_, same⟩
    simp only [Run.keeping, List.mem_append, List.mem_filter] at member ⊢
    exact member.imp And.left And.left
  have apart
      : prior.ApartFrom (e.run.liveSets.filter (!e.session.hasConsumers ·.key)) e.state := by
    intro untouched used set member same
    have live := (List.mem_filter.mp member).1
    exact (stands.claimed untouched used).mp (same ▸ Run.covers_of_live live)
  obtain ⟨well, ill⟩ := leads_remove acts _ { e with run := e.run.keeping e.session }
    ⟨⟨leads, kept⟩, apart⟩
  exact ⟨fun ok => (well ok).1, ill⟩

/-- The set stands when a round is carried out. -/
theorem leads_carryOut {done : List Stage} {increment : Increment}
    (whole : out.stages = done ++ increment.stages)
    (numbered : out.stages.map Stage.id = (List.range out.stages.length).map StageId.mk)
    (drops : DropsWritten out.stages)
    : Step.LeadsOr (prior.Standing first out done False)
        (service.carryOut prior.cluster increment) (prior.Standing first out out.stages False)
        (prior.Abandoned first) := by
  have counting
      : Step.LeadsOr (prior.Standing first out done False)
          (Step.note fun run => { run with increments := run.increments + 1 })
          (prior.Standing first out done False) (prior.Abandoned first) :=
    Step.leadsOr_note fun e ⟨leads, stands⟩ => ⟨leads, stands.of_view rfl stands.fits id⟩
  have creating := Step.leadsOr_forEach (fun _ => prior.Standing first out done False)
    increment.intermediateSets fun _ set _ _ =>
      @leads_createLive _ _ done set service acts first out held
  have running := Step.leadsOr_forEach
    (fun ran => prior.Standing first out (done ++ ran) False) increment.stages
    fun ran stage rest split => by
      have place : out.stages = done ++ ran ++ stage :: rest := by simp [whole, split]
      rw [← List.append_assoc]
      exact leads_runStage acts numbered (by simp [place]) (drops _ stage rest place prior.key)
  rw [List.append_nil, ← whole] at running
  exact counting.andThen (creating.andThen (running.andThen (leads_removeConsumed acts)))

end Round

-----------------------------------------------------------------------------------------------
-- Runs
-----------------------------------------------------------------------------------------------

section Running

variable {service : Service σ} (acts : service.ActsOn prior.view prior.fit) {first : Session}
  {out : Increment} (held : prior.before.hasSet prior.node prior.key = true)

include acts

/-- Planning a round leaves all sets alone. -/
theorem Stands.planNext (stands : prior.Stands ran False e)
    : prior.Stands ran False (service.planNext prior.cluster e).2 := by
  obtain ⟨run, state, -⟩ := service.planNext_spec prior.cluster e
  obtain ⟨-, view, fits⟩ := acts.refresh prior.cluster e.state stands.fits
  rw [LocalCluster.refresh_state] at view
  rw [← state] at view fits
  exact stands.of_view view fits fun none => run ▸ none

include held

/-- The set stands when the rounds of a run are over. -/
theorem leads_drive (numbered : ∀ out s, first.LeadsTo out s → Session.Counted out s)
    (drops : ∀ out s, first.LeadsTo out s → Session.Spends out s) (fuel : Nat)
    : Step.LeadsOr
        (fun e =>
          (∃ out, prior.Standing first out out.stages False e)
          ∧ e.session.topology.arena.activeCount ≤ fuel)
        (service.drive prior.cluster fuel)
        (fun e =>
          (∃ out, prior.Standing first out out.stages False e) ∧ e.session.hasSources = false)
        (prior.Abandoned first) := by
  refine Service.leadsOr_drive ?_ ?_ ?_ fuel
  · rintro e ⟨out, standing⟩
    obtain ⟨well, ill⟩ := leads_checkCancelled acts e standing
    exact ⟨fun ok => ⟨out, well ok⟩, ill⟩
  · rintro e error next ⟨out, leads, stands⟩ planned
    have stays := (leads.planNext service prior.cluster).2
    have ready := stands.planNext acts
    have causes := @Service.planNext_error _ service prior.cluster e error
    rw [planned] at stays ready causes
    refine ready.abandoned (stays error rfl) ?_
    rcases causes rfl with ⟨node, cause, rfl⟩ | ⟨cause, rfl⟩ <;> nofun
  · rintro e increment next ⟨out, leads, stands⟩ planned - _ rfl
    have goesOn := (leads.planNext service prior.cluster).1
    have ready := stands.planNext acts
    rw [planned] at goesOn ready
    have further := goesOn increment rfl
    obtain ⟨well, ill⟩ := leads_carryOut acts held rfl (numbered _ _ further).ids
      (drops _ _ further).stages _ ⟨further, ready⟩
    exact ⟨fun ok => ⟨_, well ok⟩, ill⟩

omit held in
/-- Removing what is left at the end cannot fail, and takes all of it off the nodes of the run. -/
theorem report?_removeAll (outcome : Except ExecError Unit) (sets : List SetId) {state : σ}
    (fits : prior.fit state)
    : (service.removeAll prior.cluster outcome sets state).1 = outcome
      ∧ (prior.view (service.removeAll prior.cluster outcome sets state).2).report? prior.node
            prior.key
          = if prior.node ∈ prior.cluster.nodes.map ClusterNode.id
              ∧ ∃ set ∈ sets, set.key = prior.key then none
            else (prior.view state).report? prior.node prior.key := by
  induction sets generalizing state with
  | nil => simp [Service.removeAll]
  | cons set rest ih =>
      obtain ⟨answer, view, still⟩ := acts.removeEverywhere prior.cluster set state fits
      rw [LocalCluster.removeEverywhere_ok] at answer
      have here := @LocalCluster.report?_removeEverywhere (prior.view state) prior.node prior.key
        prior.cluster set
      obtain ⟨outcome, others⟩ := ih still
      rw [← view] at here
      rw [Service.removeAll]
      rcases asked : service.removeEverywhere prior.cluster set state with ⟨_ | ⟨⟩, after⟩
      · rw [asked] at answer
        simp at answer
      · rw [asked] at here others outcome
        refine ⟨outcome, ?_⟩
        simp only [others, here, ← ite_or]
        refine if_congr ?_ rfl rfl
        rw [List.exists_mem_cons_iff, ← and_or_left, or_comm, @eq_comm _ prior.key]

end Running

end PriorSet

/-- A run on a simulated cluster loses a set that a node held before, and that no stage of the run
has written there, exactly if the run uses that node and fails to make a set of the same key: one
that it was to create, as some node held one already, or a hash table that a stage was to leave.
Every other run leaves the set as it was, whether it succeeds or fails.
Witness: a set that the run creates on all nodes was on none of them, a stage that all nodes carry
out writes its sink on all of them, and what stages drop was written by earlier ones.
-/
theorem run_loses_iff {σ : Type} {service : Service σ} {view : σ → LocalCluster} {fit : σ → Prop}
    {cluster : ClusterConfig} {jobId : String} {g : Graph} {config : PlannerConfig}
    {first : Session} {state : σ} (started : Session.start jobId g config = .ok first)
    (acts : service.ActsOn view fit) (fits : fit state) {n : Nat} {key : String}
    (held : (view state).hasSet n key = true)
    (unwritten
      : (view state).Unwritten (view (service.run cluster first state).2.state) n key)
    : ∃ planned,
        first.LeadsTo planned (service.run cluster first state).2.session
        ∧ ((view (service.run cluster first state).2.state).report? n key = none
            ↔ n ∈ cluster.nodes.map ClusterNode.id
              ∧ ∃ error,
                  (service.run cluster first state).1 = .error error
                  ∧ error.Orphans planned.stages key)
        ∧ ((view (service.run cluster first state).2.state).report? n key ≠ none →
            (view (service.run cluster first state).2.state).report? n key
              = (view state).report? n key) := by
  obtain ⟨beginning, -, -, begins⟩ := Session.beginning_of_start started
  let prior : PriorSet σ := ⟨view, fit, cluster, view state, n, key⟩
  let start : Execution σ := ⟨first, .start, state⟩
  let driven := service.drive cluster first.topology.arena.activeCount start
  have acts : service.ActsOn prior.view prior.fit := acts
  have stands : prior.Stands [] False start :=
    ⟨fits, .refl _, by simp, fun _ _ => by simp [Run.Covers, Run.start, start]⟩
  obtain ⟨well, ill⟩ := PriorSet.leads_drive acts held
    (fun out s leads => leads.counted begins)
    (fun out s leads => leads.steady Session.steady_spends beginning.spends) _ start
    ⟨⟨.empty, .refl first, stands⟩, Nat.le_refl _⟩
  obtain ⟨planned, leads, ran, ended⟩
      : ∃ planned : Increment,
          first.LeadsTo planned driven.2.session
          ∧ ∃ ran,
              prior.Stands ran (∃ error, driven.1 = .error error
                ∧ error.Orphans planned.stages key) driven.2 := by
    rcases outcome : driven.1 with error | ⟨⟩
    · obtain ⟨out, leads, stands⟩ := ill error outcome
      exact ⟨out, leads, [], by simpa using stands⟩
    · obtain ⟨⟨out, leads, stands⟩, -⟩ := well outcome
      exact ⟨out, leads, out.stages, by simpa using stands⟩
  -- what is removed at the end is what the run is about to remove then
  obtain ⟨cleanup, swept⟩ := PriorSet.report?_removeAll acts (.ok ())
    (driven.2.run.liveSets ++ driven.2.run.aggregationResults) ended.fits
  have executed := (acts.runsOn.removeAll cluster (.ok ())
    (driven.2.run.liveSets ++ driven.2.run.aggregationResults) driven.2.state ended.fits).1
  have untouched : prior.Untouched driven.2.state := (prior.untouched_iff executed).mp unwritten
  have before : (view driven.2.state).report? n key = (view state).report? n key :=
    ended.spares.same untouched
  have outcome : ∀ error,
      (service.run cluster first state).1 = .error error ↔ driven.1 = .error error := by
    intro error
    change (driven.1 >>= fun _ => _ >>= fun _ => _) = _ ↔ _
    rw [cleanup]
    cases driven.1 <;> simp
  have claimed : n ∈ cluster.nodes.map ClusterNode.id →
      ((∃ set ∈ driven.2.run.liveSets ++ driven.2.run.aggregationResults, set.key = key)
        ↔ ∃ error,
            (service.run cluster first state).1 = .error error
            ∧ error.Orphans planned.stages key) := by
    intro used
    simp only [outcome]
    exact ended.claimed untouched used
  have last : (view (service.run cluster first state).2.state).report? n key = _ := swept
  rw [LocalCluster.hasSet, Option.isSome_iff_ne_none] at held
  refine ⟨planned, leads, ?_⟩
  rw [last, ← and_congr_right claimed]
  split
  · next lost => exact ⟨iff_of_true rfl lost, (absurd rfl ·)⟩
  · next kept => exact ⟨iff_of_false (before ▸ held) kept, fun _ => before⟩

/-- A step that two others read, so that its output is kept in a set of the job's. -/
def twoReaders : Graph :=
  .ofLists
    [.scan "scan" "db" "data", .ofKind "clean" .selection,
      (Computation.ofKind "write_left" .write).setOutput "db" "left",
      (Computation.ofKind "write_right" .write).setOutput "db" "right"]
    [.scan "in" "scan", .apply "a" "in" "clean", .apply "left" "a" "write_left",
      .apply "right" "a" "write_right"]

/-- One node holds a set with the key of the one that is to be created, the other one the input. -/
def takenNodes : WatchedCluster :=
  .ofCluster ((LocalCluster.empty.seed 0 "job" "a" 7 4096).seed 1 "db" "data" 3 4096)

/-- The run executes no stage, and loses a set that is not its own. -/
theorem takenNodes_lost
    : ∃ first,
        Session.start "job" twoReaders .standard = .ok first
        ∧ takenNodes.cluster.report? 0 "job:a" = some ⟨"job", "a", 7, 4096⟩
        ∧ (WatchedCluster.service.run twoNodes first takenNodes).2.state.cluster.executed = []
        ∧ (WatchedCluster.service.run twoNodes first takenNodes).1
          = .error (.storage "job:a" 0 .exists)
        ∧ (WatchedCluster.service.run twoNodes first takenNodes).2.state.cluster.report? 0 "job:a"
          = none := by
  have runs : ((Session.start "job" twoReaders .standard).toOption.map fun first =>
      (takenNodes.cluster.report? 0 "job:a",
        (WatchedCluster.service.run twoNodes first takenNodes).2.state.cluster.executed,
        (WatchedCluster.service.run twoNodes first takenNodes).1,
        (WatchedCluster.service.run twoNodes first takenNodes).2.state.cluster.report? 0 "job:a"))
      = some (some ⟨"job", "a", 7, 4096⟩, [], .error (.storage "job:a" 0 .exists), none) := by
    decide +kernel
  obtain ⟨first, outcome, runs⟩ := Except.toOption_map_eq_some_iff.mp runs
  simp only [Prod.mk.injEq] at runs
  exact ⟨first, outcome, runs⟩

theorem takenNodes_loses_iff
    : ∃ first planned,
        Session.start "job" twoReaders .standard = .ok first
        ∧ takenNodes.cluster.hasSet 0 "job:a" = true
        ∧ ((WatchedCluster.service.run twoNodes first takenNodes).2.state.cluster.report? 0 "job:a"
              = none
            ↔ 0 ∈ twoNodes.nodes.map ClusterNode.id
              ∧ ∃ error,
                  (WatchedCluster.service.run twoNodes first takenNodes).1 = .error error
                  ∧ error.Orphans planned "job:a") := by
  have idle : ((Session.start "job" twoReaders .standard).toOption.map fun first =>
      (WatchedCluster.service.run twoNodes first takenNodes).2.state.cluster.executed)
      = some [] := by
    decide +kernel
  obtain ⟨first, outcome, idle⟩ := Except.toOption_map_eq_some_iff.mp idle
  have held : takenNodes.cluster.hasSet 0 "job:a" = true := by decide +kernel
  obtain ⟨planned, -, lost, -⟩ :=
    @run_loses_iff _ _ _ _ twoNodes _ _ _ _ takenNodes outcome WatchedCluster.actsOn
      ⟨rfl, rfl⟩ 0 "job:a" held (by simp [LocalCluster.Unwritten, LocalCluster.ranOn, idle])
  exact ⟨first, planned.stages, outcome, held, lost⟩

end DataflowPlan
