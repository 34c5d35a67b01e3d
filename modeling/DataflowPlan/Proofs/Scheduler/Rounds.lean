import DataflowPlan.Proofs.Session.Numbering
import DataflowPlan.Scheduler

/-! The parts of a run, told by what holds before and after each of them, and its rounds. A run
goes on from round to round while a source is left.
-/

namespace DataflowPlan

-----------------------------------------------------------------------------------------------
-- Parts of a run
-----------------------------------------------------------------------------------------------

namespace Step

variable {σ α : Type} {before mid after broken : Execution σ → Prop}
  {failing : ExecError → Execution σ → Prop}

theorem andThen_assoc (first second third : Step σ)
    : (first.andThen second).andThen third = first.andThen (second.andThen third) := by
  funext e
  unfold andThen
  rcases first e with ⟨error | ⟨⟩, next⟩ <;> rfl

/-- From an execution as before the step comes to one as after, or fails and leaves one that may be
left for that error.
-/
def LeadsOr (before : Execution σ → Prop) (step : Step σ) (after : Execution σ → Prop)
    (failing : ExecError → Execution σ → Prop) : Prop :=
  ∀ e,
    before e →
      ((step e).1 = .ok () → after (step e).2)
      ∧ ∀ error, (step e).1 = .error error → failing error (step e).2

section Outcomes

variable {step : Step σ} {e next : Execution σ} {error : ExecError}

theorem LeadsOr.of_ok (leads : LeadsOr before step after failing) (holds : before e)
    (outcome : step e = (.ok (), next))
    : after next := by
  have well := (leads e holds).1
  rw [outcome] at well
  exact well rfl

theorem LeadsOr.of_error (leads : LeadsOr before step after failing) (holds : before e)
    (outcome : step e = (.error error, next))
    : failing error next := by
  have ill := (leads e holds).2 error
  rw [outcome] at ill
  exact ill rfl

end Outcomes

theorem LeadsOr.andThen {first second : Step σ} (one : LeadsOr before first mid failing)
    (two : LeadsOr mid second after failing)
    : LeadsOr before (first.andThen second) after failing := by
  intro e holds
  obtain ⟨well, ill⟩ := one e holds
  rw [Step.andThen]
  rcases outcome : first e with ⟨error | ⟨⟩, next⟩
  · rw [outcome] at ill
    refine ⟨nofun, fun other same => ?_⟩
    obtain rfl := Except.error.inj same
    exact ill error rfl
  · rw [outcome] at well
    exact two next (well rfl)

/-- Steps for items in turn keep what depends on the items that are done. -/
theorem leadsOr_forEach {step : α → Step σ} (inv : List α → Execution σ → Prop) (items : List α)
    (each
      : ∀ done item rest,
          items = done ++ item :: rest →
            LeadsOr (inv done) (step item) (inv (done ++ [item])) failing)
    : LeadsOr (inv []) (forEach step items) (inv items) failing := by
  have rest : ∀ rest done, items = done ++ rest →
      LeadsOr (inv done) (forEach step rest) (inv items) failing := by
    intro rest
    induction rest with
    | nil =>
        intro done whole e holds
        rw [whole, List.append_nil]
        exact ⟨fun _ => holds, nofun⟩
    | cons item rest ih =>
        intro done whole
        exact (each done item rest whole).andThen (ih (done ++ [item]) (by simp [whole]))
  exact rest items [] rfl

theorem leadsOr_note {change : Run → Run}
    (kept : ∀ e, before e → after { e with run := change e.run })
    : LeadsOr before (note change) after failing :=
  fun e holds => ⟨fun _ => kept e holds, nofun⟩

theorem leadsOr_ask {request : Request σ Unit}
    (well
      : ∀ e,
          before e →
            (request e.state).1 = .ok () → after { e with state := (request e.state).2 })
    (ill
      : ∀ e,
          before e →
            ∀ error,
              (request e.state).1 = .error error →
                failing error { e with state := (request e.state).2 })
    : LeadsOr before (ask request) after failing :=
  fun e holds => ⟨well e holds, ill e holds⟩

/-- From an execution as before the step comes to one as after, or fails and leaves one that may be
broken off.
-/
def Leads (before : Execution σ → Prop) (step : Step σ) (after broken : Execution σ → Prop)
    : Prop :=
  ∀ e,
    before e →
      ((step e).1 = .ok () → after (step e).2)
      ∧ ∀ error, (step e).1 = .error error → broken (step e).2

theorem leads_iff {step : Step σ}
    : Leads before step after broken ↔ LeadsOr before step after fun _ => broken :=
  .rfl

theorem Leads.of_ok {step : Step σ} {e next : Execution σ} (leads : Leads before step after broken)
    (holds : before e) (outcome : step e = (.ok (), next))
    : after next :=
  (leads_iff.mp leads).of_ok holds outcome

theorem Leads.of_error {step : Step σ} {e next : Execution σ} {error : ExecError}
    (leads : Leads before step after broken) (holds : before e)
    (outcome : step e = (.error error, next))
    : broken next :=
  (leads_iff.mp leads).of_error holds outcome

theorem Leads.andThen {first second : Step σ} (one : Leads before first mid broken)
    (two : Leads mid second after broken)
    : Leads before (first.andThen second) after broken :=
  LeadsOr.andThen (leads_iff.mp one) (leads_iff.mp two)

/-- What holds after a step that goes well, and if it breaks off, holds in any case. -/
theorem Leads.always {step : Step σ} {e : Execution σ} (leads : Leads before step after broken)
    (weaker : ∀ e, after e → broken e) (holds : before e)
    : broken (step e).2 := by
  obtain ⟨well, ill⟩ := leads e holds
  rcases outcome : (step e).1 with error | ⟨⟩
  · exact ill error outcome
  · exact weaker _ (well outcome)

theorem leads_forEach {step : α → Step σ} (inv : List α → Execution σ → Prop) (items : List α)
    (each
      : ∀ done item rest,
          items = done ++ item :: rest → Leads (inv done) (step item) (inv (done ++ [item])) broken)
    : Leads (inv []) (forEach step items) (inv items) broken :=
  leads_iff.mpr (leadsOr_forEach inv items fun done item rest whole =>
    leads_iff.mp (each done item rest whole))

theorem leads_note {change : Run → Run}
    (kept : ∀ e, before e → after { e with run := change e.run })
    : Leads before (note change) after broken :=
  leadsOr_note kept

theorem leads_ask {request : Request σ Unit}
    (well
      : ∀ e,
          before e →
            (request e.state).1 = .ok () → after { e with state := (request e.state).2 })
    (ill
      : ∀ e,
          before e →
            ∀ error,
              (request e.state).1 = .error error → broken { e with state := (request e.state).2 })
    : Leads before (ask request) after broken :=
  fun e holds => ⟨well e holds, ill e holds⟩

/-- Steps for items in turn fail at one of them, after all those before it went well. -/
theorem forEach_eq_error_iff {step : α → Step σ} {items : List α} {e next : Execution σ}
    {error : ExecError}
    : forEach step items e = (.error error, next)
        ↔ ∃ done item rest partway,
            items = done ++ item :: rest
            ∧ forEach step done e = (.ok (), partway)
            ∧ step item partway = (.error error, next) := by
  induction items generalizing e with
  | nil => simp [forEach]
  | cons head rest ih =>
      constructor
      · intro fails
        rw [forEach, andThen] at fails
        rcases outcome : step head e with ⟨cause | ⟨⟩, after⟩
        · rw [outcome] at fails
          exact ⟨[], head, rest, e, rfl, rfl, outcome.trans fails⟩
        · rw [outcome] at fails
          obtain ⟨done, item, later, partway, rfl, well, ill⟩ := ih.mp fails
          exact ⟨head :: done, item, later, partway, rfl, by simp [forEach, andThen, outcome, well],
            ill⟩
      · rintro ⟨done, item, later, partway, whole, well, ill⟩
        cases done with
        | nil =>
            obtain ⟨rfl, rfl⟩ := List.cons.inj whole
            obtain rfl : e = partway := congrArg Prod.snd well
            simp [forEach, andThen, ill]
        | cons first done =>
            obtain ⟨rfl, rfl⟩ := List.cons.inj whole
            rw [forEach, andThen] at well ⊢
            rcases outcome : step head e with ⟨cause | ⟨⟩, after⟩
            · simp [outcome] at well
            · rw [outcome] at well
              exact ih.mpr ⟨done, item, later, partway, rfl, well, ill⟩

section Keeps

variable {β : Type} {read : Execution σ → β}

/-- What is read of an execution is the same after the step, however it ends. -/
def Keeps (read : Execution σ → β) (step : Step σ) : Prop :=
  ∀ e, read (step e).2 = read e

theorem Keeps.andThen {first second : Step σ} (one : Keeps read first) (two : Keeps read second)
    : Keeps read (first.andThen second) := by
  intro e
  have kept := one e
  rw [Step.andThen]
  rcases outcome : first e with ⟨error | ⟨⟩, next⟩
  · rw [outcome] at kept
    exact kept
  · rw [outcome] at kept
    exact (two next).trans kept

theorem Keeps.forEach {step : α → Step σ} (each : ∀ item, Keeps read (step item))
    (items : List α)
    : Keeps read (forEach step items) := by
  induction items with
  | nil => exact fun _ => rfl
  | cons item rest ih => exact (each item).andThen ih

end Keeps

/-- The step plans nothing. -/
def KeepsSession (step : Step σ) : Prop :=
  ∀ e, (step e).2.session = e.session

theorem KeepsSession.andThen {first second : Step σ} (one : KeepsSession first)
    (two : KeepsSession second)
    : KeepsSession (first.andThen second) :=
  Keeps.andThen one two

theorem KeepsSession.forEach {step : α → Step σ} (each : ∀ item, KeepsSession (step item))
    (items : List α)
    : KeepsSession (forEach step items) :=
  Keeps.forEach each items

theorem keepsSession_note (change : Run → Run) : @KeepsSession σ (note change) :=
  fun _ => rfl

theorem keepsSession_ask (request : Request σ Unit) : KeepsSession (ask request) :=
  fun _ => rfl

end Step

-----------------------------------------------------------------------------------------------
-- Rounds
-----------------------------------------------------------------------------------------------

/-- Planning a round leaves the run as it is, and the cluster as statistics leave it. -/
theorem Service.planNext_spec {σ : Type} (service : Service σ) (cluster : ClusterConfig)
    (e : Execution σ)
    : (service.planNext cluster e).2.run = e.run
      ∧ (service.planNext cluster e).2.state = (service.refresh cluster e.state).2
      ∧ ∀ increment,
          (service.planNext cluster e).1 = .ok increment →
            ∃ stats,
              e.session.planIncrement stats
                = (.ok increment, (service.planNext cluster e).2.session) := by
  rw [planNext]
  rcases service.refresh cluster e.state with ⟨error | stats, state⟩
  · simp
  · rcases planned : e.session.planIncrement stats with ⟨error | increment, session⟩
    · simp [planned]
    · simp only [planned, Except.ok.injEq, true_and]
      rintro _ rfl
      exact ⟨stats, planned⟩

namespace Session

/-- Increments planned in turn, each with its own statistics, lead to the session. -/
def LeadsTo (first : Session) (out : Increment) (s : Session) : Prop :=
  ∃ calls : List Statistics, first.run (calls.map (.planIncrement, ·)) = (out, s)

theorem LeadsTo.refl (s : Session) : s.LeadsTo .empty s :=
  ⟨[], rfl⟩

theorem LeadsTo.planIncrement {first s : Session} {out : Increment} (leads : first.LeadsTo out s)
    (stats : Statistics)
    : first.LeadsTo (collect out (s.planIncrement stats)).1
        (collect out (s.planIncrement stats)).2 := by
  obtain ⟨calls, whole⟩ := leads
  refine ⟨calls ++ [stats], ?_⟩
  rw [List.map_append, List.map_singleton, run_concat, whole]
  rfl

/-- What every attempt keeps holds wherever increments lead. -/
theorem LeadsTo.steady {P : Increment → Session → Prop} (steady : Steady P) {first s : Session}
    {out : Increment} (holds : P .empty first) (leads : first.LeadsTo out s)
    : P out s := by
  obtain ⟨calls, whole⟩ := leads
  have after := steady.run holds (calls.map (.planIncrement, ·))
  rwa [whole] at after

theorem LeadsTo.counted {first s : Session} {out : Increment} (leads : first.LeadsTo out s)
    (begins : first.nextStage = ⟨0⟩)
    : Counted out s :=
  leads.steady steady_counted ⟨begins, rfl⟩

/-- Planning a round goes on from where the rounds so far led, and if it fails it leaves nothing. -/
theorem LeadsTo.planNext {σ : Type} (service : Service σ) (cluster : ClusterConfig)
    {first : Session} {out : Increment} {e : Execution σ} (leads : first.LeadsTo out e.session)
    : (∀ increment,
          (service.planNext cluster e).1 = .ok increment →
            first.LeadsTo (out.append increment) (service.planNext cluster e).2.session)
      ∧ ∀ error,
          (service.planNext cluster e).1 = .error error →
            first.LeadsTo out (service.planNext cluster e).2.session := by
  rw [Service.planNext]
  rcases service.refresh cluster e.state with ⟨error | stats, state⟩
  · exact ⟨nofun, fun _ _ => leads⟩
  · have further := leads.planIncrement stats
    rcases outcome : e.session.planIncrement stats with ⟨error | increment, session⟩
    all_goals
      rw [outcome] at further
      simpa [outcome, collect] using further

end Session

/-- Statistics are missing because some node has none. -/
theorem addReports_eq_error {stats : Statistics}
    {answers : List (ClusterNode × Except ExecError (List SetReport))} {error : ExecError}
    (fails : addReports stats answers = .error error)
    : ∃ node cause, error = .statistics node cause := by
  induction answers generalizing stats with
  | nil => simp [addReports] at fails
  | cons head rest ih =>
      rcases head with ⟨node, cause | reports⟩
      · exact ⟨node.id, cause, (Except.error.inj fails).symm⟩
      · exact ih fails

/-- A round is not planned for want of statistics, or by the planning itself. -/
theorem Service.planNext_error {σ : Type} {service : Service σ} {cluster : ClusterConfig}
    {e : Execution σ} {error : ExecError} (fails : (service.planNext cluster e).1 = .error error)
    : (∃ node cause, error = .statistics node cause) ∨ ∃ cause, error = .planning cause := by
  rw [planNext] at fails
  rcases asked : service.refresh cluster e.state with ⟨missing | stats, state⟩
  · rw [asked] at fails
    obtain rfl := Except.error.inj fails
    exact .inl (addReports_eq_error (congrArg Prod.fst asked))
  · rcases planned : e.session.planIncrement stats with ⟨cause | increment, session⟩
    · simp only [asked, planned] at fails
      exact .inr ⟨cause, (Except.error.inj fails).symm⟩
    · simp [asked, planned] at fails

/-- A round that is carried out: its increment, and the execution after it. -/
inductive Service.Round {σ : Type} (service : Service σ) (cluster : ClusterConfig)
    (e : Execution σ) : Increment → Execution σ → Prop
  | carried {begun ready increment next} (sources : e.session.hasSources = true)
    (checked : service.checkCancelled e = (.ok (), begun))
    (planned : service.planNext cluster begun = (.ok increment, ready))
    (some : increment.isEmpty = false)
    (done : service.carryOut cluster increment ready = (.ok (), next))
    : service.Round cluster e increment next

/-- The executions with which the rounds of a run begin, and the increments before each of them; the
last one is where rounds end or break off.
-/
inductive Service.Rounds {σ : Type} (service : Service σ) (cluster : ClusterConfig)
    (begin : Execution σ) : Increment → Execution σ → Prop
  | start : service.Rounds cluster begin .empty begin
  | next {out e increment after} (before : service.Rounds cluster begin out e)
    (round : service.Round cluster e increment after)
    : service.Rounds cluster begin (out.append increment) after

/-- How rounds end: no source is left, the job is cancelled before a round, a round is not planned,
or it is not carried out.
-/
inductive Service.Ends {σ : Type} (service : Service σ) (cluster : ClusterConfig)
    (begin : Execution σ) : Except ExecError Unit × Execution σ → Prop
  | done {out e} (rounds : service.Rounds cluster begin out e)
    (idle : e.session.hasSources = false)
    : service.Ends cluster begin (.ok (), e)
  | cancelled {out e error next} (rounds : service.Rounds cluster begin out e)
    (sources : e.session.hasSources = true)
    (checked : service.checkCancelled e = (.error error, next))
    : service.Ends cluster begin (.error error, next)
  | unplanned {out e begun error next} (rounds : service.Rounds cluster begin out e)
    (sources : e.session.hasSources = true)
    (checked : service.checkCancelled e = (.ok (), begun))
    (fails : service.planNext cluster begun = (.error error, next))
    : service.Ends cluster begin (.error error, next)
  | broken {out e begun increment ready error next} (rounds : service.Rounds cluster begin out e)
    (sources : e.session.hasSources = true)
    (checked : service.checkCancelled e = (.ok (), begun))
    (planned : service.planNext cluster begun = (.ok increment, ready))
    (some : increment.isEmpty = false)
    (fails : service.carryOut cluster increment ready = (.error error, next))
    : service.Ends cluster begin (.error error, next)

section Rounds

variable {σ : Type} {service : Service σ} {cluster : ClusterConfig} {begin e next : Execution σ}
  {increment out : Increment}

/-- Looking whether the job is cancelled changes the state alone, and fails only if it is. -/
theorem Service.leadsOr_checkCancelled {before after : Execution σ → Prop}
    {failing : ExecError → Execution σ → Prop}
    (well : ∀ e, before e → after { e with state := (service.isCancelled e.state).2 })
    (ill
      : ∀ e, before e → failing .cancelled { e with state := (service.isCancelled e.state).2 })
    : Step.LeadsOr before service.checkCancelled after failing := by
  intro e holds
  refine ⟨fun _ => well e holds, fun error fails => ?_⟩
  obtain rfl : error = .cancelled := by
    simp only [checkCancelled] at fails
    split at fails
    · exact (Except.error.inj fails).symm
    · simp at fails
  exact ill e holds

/-- Looking whether the job is cancelled keeps what any state that it leaves keeps. -/
theorem Service.leads_checkCancelled {before broken : Execution σ → Prop}
    (kept : ∀ e, before e → before { e with state := (service.isCancelled e.state).2 })
    (weaker : ∀ e, before e → broken e)
    : Step.Leads before service.checkCancelled before broken :=
  leadsOr_checkCancelled kept fun e holds => weaker _ (kept e holds)

/-- Nothing is planned while an increment is carried out. -/
theorem Service.keepsSession_carryOut (service : Service σ) (cluster : ClusterConfig)
    (increment : Increment)
    : Step.KeepsSession (service.carryOut cluster increment) := by
  have check : Step.KeepsSession service.checkCancelled := fun _ => rfl
  have create : ∀ set, Step.KeepsSession (service.createLive cluster set) := fun set =>
    (Step.keepsSession_note _).andThen
      ((Step.keepsSession_ask _).andThen (Step.keepsSession_note _))
  have stage : ∀ stage, Step.KeepsSession (service.runStage cluster stage) := fun stage =>
    check.andThen ((Step.keepsSession_note _).andThen
      ((Step.keepsSession_ask _).andThen (Step.keepsSession_note _)))
  have remove : Step.KeepsSession (service.removeConsumed cluster) := fun e =>
    Step.KeepsSession.forEach (fun _ => Step.keepsSession_ask _) _ { e with run := _ }
  exact (Step.keepsSession_note _).andThen ((Step.KeepsSession.forEach create _).andThen
    ((Step.KeepsSession.forEach stage _).andThen remove))

/-- A round that is planned while a source is left is an increment with stages. -/
theorem Service.planned_of_planNext {begun ready : Execution σ}
    (sources : e.session.hasSources = true)
    (checked : service.checkCancelled e = (.ok (), begun))
    (planned : service.planNext cluster begun = (.ok increment, ready))
    : increment.isEmpty = false
      ∧ ∃ stats, e.session.planIncrement stats = (.ok increment, ready.session) := by
  have same : begun.session = e.session := (congrArg (·.2.session) checked).symm
  obtain ⟨-, -, plans⟩ := service.planNext_spec cluster begun
  rw [planned] at plans
  obtain ⟨stats, outcome⟩ := plans increment rfl
  rw [same] at outcome
  refine ⟨?_, stats, outcome⟩
  simpa [Increment.isEmpty] using Session.stages_ne_nil_of_planIncrement sources outcome

/-- A round takes a consumer off the session's arena. -/
theorem Service.Round.activeCount_lt (round : service.Round cluster e increment next)
    : next.session.topology.arena.activeCount < e.session.topology.arena.activeCount := by
  cases round with
  | @carried begun ready increment next sources checked planned some done =>
      have kept := service.keepsSession_carryOut cluster increment ready
      rw [done] at kept
      obtain ⟨-, stats, outcome⟩ := service.planned_of_planNext sources checked planned
      rw [kept]
      exact Session.activeCount_of_planIncrement sources outcome

/-- After each of its rounds a run goes on as from there, with fuel for every consumer that is
left.
-/
theorem Service.Rounds.drive_eq (rounds : service.Rounds cluster begin out e)
    : ∃ fuel,
        e.session.topology.arena.activeCount ≤ fuel
        ∧ service.drive cluster begin.session.topology.arena.activeCount begin
          = service.drive cluster fuel e := by
  induction rounds with
  | start => exact ⟨_, Nat.le_refl _, rfl⟩
  | next before round ih =>
      obtain ⟨fuel, enough, same⟩ := ih
      have fewer := round.activeCount_lt
      obtain ⟨left, rfl⟩ : ∃ left, fuel = left + 1 := ⟨fuel - 1, by omega⟩
      refine ⟨left, by omega, same.trans ?_⟩
      cases round with
      | carried sources checked planned some done =>
          simp [drive, sources, checked, planned, some, Step.andThen, done]

/-- A run does not stop for want of fuel while some source is left. -/
theorem Service.Rounds.goes_on (rounds : service.Rounds cluster begin out e)
    (sources : e.session.hasSources = true)
    : ∃ fuel,
        service.drive cluster begin.session.topology.arena.activeCount begin
          = service.drive cluster (fuel + 1) e := by
  obtain ⟨fuel, enough, same⟩ := rounds.drive_eq
  cases fuel with
  | succ fuel => exact ⟨fuel, same⟩
  | zero =>
      rw [Session.hasSources_of_activeCount (Nat.le_zero.mp enough)] at sources
      simp at sources

/-- Rounds go on until they end.
Witness: induction on the fuel, which is never less than the consumers that are left to plan.
-/
theorem Service.Rounds.ends (rounds : service.Rounds cluster begin out e) {fuel : Nat}
    (enough : e.session.topology.arena.activeCount ≤ fuel)
    : service.Ends cluster begin (service.drive cluster fuel e) := by
  induction fuel generalizing out e with
  | zero => exact .done rounds (Session.hasSources_of_activeCount (Nat.le_zero.mp enough))
  | succ fuel ih =>
      rw [drive]
      cases sources : e.session.hasSources with
      | false => exact .done rounds sources
      | true =>
          rw [Bool.not_true, if_neg Bool.false_ne_true]
          split
          · next error begun checked => exact .cancelled rounds sources checked
          · next begun checked =>
              split
              · next error next planned => exact .unplanned rounds sources checked planned
              · next increment ready planned =>
                  obtain ⟨some, -⟩ := service.planned_of_planNext sources checked planned
                  rw [some, if_neg Bool.false_ne_true, Step.andThen]
                  split
                  · next after done =>
                      have round : service.Round cluster e increment after :=
                        .carried sources checked planned some done
                      have fewer := round.activeCount_lt
                      exact ih (.next rounds round) (by omega)
                  · next error after fails =>
                      exact .broken rounds sources checked planned some fails

/-- A round that breaks off as it is carried out ends the rounds. -/
theorem Service.Rounds.drive_of_broken (rounds : service.Rounds cluster begin out e)
    (sources : e.session.hasSources = true) {begun ready : Execution σ}
    (checked : service.checkCancelled e = (.ok (), begun))
    (planned : service.planNext cluster begun = (.ok increment, ready))
    (some : increment.isEmpty = false) {error : ExecError}
    (fails : service.carryOut cluster increment ready = (.error error, next))
    : service.drive cluster begin.session.topology.arena.activeCount begin
        = (.error error, next) := by
  obtain ⟨fuel, same⟩ := rounds.goes_on sources
  rw [same, drive]
  simp [sources, checked, planned, some, Step.andThen, fails]

/-- What holds before each round holds when no source is left, and what may be left for the error
with which a round breaks off, the run leaves.
Witness: what a round begins with holds before every round, by induction on the rounds, and so where
they end.
-/
theorem Service.leadsOr_drive {before : Execution σ → Prop}
    {failing : ExecError → Execution σ → Prop}
    (check : Step.LeadsOr before service.checkCancelled before failing)
    (fails
      : ∀ e error next,
          before e → service.planNext cluster e = (.error error, next) → failing error next)
    (round
      : ∀ e increment next,
          before e →
            service.planNext cluster e = (.ok increment, next) →
              increment.isEmpty = false →
                Step.LeadsOr (· = next) (service.carryOut cluster increment) before failing)
    (fuel : Nat)
    : Step.LeadsOr (fun e => before e ∧ e.session.topology.arena.activeCount ≤ fuel)
        (service.drive cluster fuel) (fun e => before e ∧ e.session.hasSources = false)
        failing := by
  rintro e ⟨holds, enough⟩
  have kept : ∀ {out after}, service.Rounds cluster e out after → before after := by
    intro out after rounds
    induction rounds with
    | start => exact holds
    | next rounds one ih =>
        cases one with
        | carried sources checked planned some done =>
            exact (round _ _ _ (check.of_ok ih checked) planned some).of_ok rfl done
  have ends : service.Ends cluster e (service.drive cluster fuel e) := Rounds.start.ends enough
  generalize service.drive cluster fuel e = result at ends ⊢
  cases ends with
  | done rounds idle => exact ⟨fun _ => ⟨kept rounds, idle⟩, nofun⟩
  | cancelled rounds sources checked =>
      refine ⟨nofun, fun other same => ?_⟩
      obtain rfl := Except.error.inj same
      exact check.of_error (kept rounds) checked
  | unplanned rounds sources checked planned =>
      refine ⟨nofun, fun other same => ?_⟩
      obtain rfl := Except.error.inj same
      exact fails _ _ _ (check.of_ok (kept rounds) checked) planned
  | broken rounds sources checked planned some done =>
      refine ⟨nofun, fun other same => ?_⟩
      obtain rfl := Except.error.inj same
      exact (round _ _ _ (check.of_ok (kept rounds) checked) planned some).of_error rfl done

theorem Service.leads_drive {before broken : Execution σ → Prop}
    (check : Step.Leads before service.checkCancelled before broken)
    (fails
      : ∀ e error next,
          before e → service.planNext cluster e = (.error error, next) → broken next)
    (round
      : ∀ e increment next,
          before e →
            service.planNext cluster e = (.ok increment, next) →
              increment.isEmpty = false →
                Step.Leads (· = next) (service.carryOut cluster increment) before broken)
    (fuel : Nat)
    : Step.Leads (fun e => before e ∧ e.session.topology.arena.activeCount ≤ fuel)
        (service.drive cluster fuel) (fun e => before e ∧ e.session.hasSources = false) broken :=
  Step.leads_iff.mpr (leadsOr_drive (Step.leads_iff.mp check) fails
    (fun e increment next holds planned some =>
      Step.leads_iff.mp (round e increment next holds planned some)) fuel)

end Rounds

/-- A run that succeeds went through all of its rounds, and reports what it has sent out. -/
theorem Service.drive_of_run {σ : Type} {service : Service σ} {cluster : ClusterConfig}
    {session : Session} {state : σ} {report : RunReport}
    (ran : (service.run cluster session state).1 = .ok report)
    : (service.drive cluster session.topology.arena.activeCount ⟨session, .start, state⟩).1 = .ok ()
      ∧ report
        = ⟨(service.run cluster session state).2.session.jobId,
            stagesHash (service.run cluster session state).2.run.dispatched,
            (service.run cluster session state).2.run.dispatched.length,
            (service.run cluster session state).2.run.increments,
            (service.run cluster session state).2.run.setsCreated⟩ := by
  simp only [run, Except.bind_eq_ok, Except.pure_eq, Except.ok.injEq] at ran ⊢
  obtain ⟨⟨⟩, well, ⟨⟩, -, same⟩ := ran
  exact ⟨well, same.symm⟩

end DataflowPlan
