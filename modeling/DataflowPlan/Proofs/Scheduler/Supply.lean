import DataflowPlan.Proofs.Cluster.Storage
import DataflowPlan.Proofs.Scheduler.Lifecycle
import DataflowPlan.Proofs.Session.Supply

/-! Stages find what they read. Between two rounds all nodes hold the sets that sources still read,
those of the user's apart; a round declares sets that are not there yet, drops only what was read
for the last time, and removes what nothing reads any more.
-/

namespace DataflowPlan

namespace Session

variable {s next : Session} {increment : Increment} {stage other : Stage} {ran : List Stage}

/-- In a round with these sets created and these stages run, there is a set of the key: a source
read it before the round, and it is not the user's, or the round has made it.
-/
def Stocks (s : Session) (created : List SetId) (ran : List Stage) (key : String) : Prop :=
  (∃ set, s.Reads set ∧ set.kind ≠ .user ∧ set.key = key)
  ∨ (∃ set ∈ created, set.key = key)
  ∨ ∃ stage ∈ ran, stage.Writes key

/-- The sets have other keys than those that sources read already. -/
def Fresh (s : Session) (created : List SetId) : Prop :=
  ∀ set ∈ created, ∀ other, s.Reads other → other.kind ≠ .user → other.key ≠ set.key

/-- Once its sets are created, the round has what its stages read. -/
theorem Supply.stocks (supply : Supply s next increment) (listed : stage ∈ increment.stages)
    (intermediate : stage.source.isIntermediate = true)
    : s.Stocks increment.intermediateSets ran stage.source.key := by
  rcases supply.reads stage listed intermediate with before | declared
  · exact .inl ⟨stage.source, before, kind_ne_user intermediate, rfl⟩
  · exact .inr (.inl declared)

/-- No stage drops what one of them reads as an intermediate set.
Witness: what is dropped is a hash table in memory that was read before, so that it has another key
than what else was read, and than what is declared.
-/
theorem Supply.not_drops (supply : Supply s next increment)
    (fresh : s.Fresh increment.intermediateSets) (listed : stage ∈ increment.stages)
    (intermediate : stage.source.isIntermediate = true) (dropping : other ∈ increment.stages)
    : ¬ other.Drops stage.source.key := by
  intro drops
  obtain ⟨-, dropped, read, kind, same⟩ := supply.drops other dropping _ drops
  rcases supply.reads stage listed intermediate with before | ⟨set, declared, key⟩
  · obtain rfl := read.eq before same
    simp [SetId.isIntermediate, kind] at intermediate
  · exact fresh set declared dropped read (by simp [kind]) (same.trans key.symm)

end Session

-----------------------------------------------------------------------------------------------
-- Rounds
-----------------------------------------------------------------------------------------------

section Rounds

variable {σ : Type}

/-- All nodes hold a set of the key. -/
def HeldEverywhere (view : σ → LocalCluster) (cluster : ClusterConfig) (state : σ) (key : String)
    : Prop :=
  ∀ node ∈ cluster.nodes, (view state).hasSet node.id key = true

/-- Between two rounds all stages so far have found what they read, and what sources still read is
held, if it is not the user's.
-/
structure InStock (view : σ → LocalCluster) (fit : σ → Prop) (cluster : ClusterConfig) (g : Graph)
    (first : Session) (e : Execution (Recorded σ)) : Prop where
  served : AllServed view fit e.state
  stocked : Session.Stocked g first e.session
  held
    : ∀ set,
        e.session.Reads set →
          set.kind ≠ .user → HeldEverywhere view cluster e.state.state set.key

/-- A round is under way that was planned in the first session: what it has in stock is held, but
for what its stages have dropped.
-/
structure Stocking (view : σ → LocalCluster) (fit : σ → Prop) (cluster : ClusterConfig)
    (s next : Session) (created : List SetId) (ran : List Stage) (e : Execution (Recorded σ))
    : Prop where
  served : AllServed view fit e.state
  session : e.session = next
  held
    : ∀ key,
        s.Stocks created ran key →
          (∀ stage ∈ ran, ¬ stage.Drops key) → HeldEverywhere view cluster e.state.state key
  fresh : cluster.nodes ≠ [] → s.Fresh created

variable {service : Service σ} {view : σ → LocalCluster} {fit : σ → Prop}
  {cluster : ClusterConfig} {g : Graph} {first s next : Session} {increment : Increment}
  {set : SetId} {stage : Stage} {created : List SetId} {ran : List Stage}
  {e after : Execution (Recorded σ)} (stores : service.StoresOn view fit)

/-- A change of the run alone leaves the stock as it is. -/
theorem Stocking.leads_note {change : Run → Run}
    : Step.Leads (Stocking view fit cluster s next created ran) (Step.note change)
        (Stocking view fit cluster s next created ran) fun e => AllServed view fit e.state :=
  Step.leads_note fun _ stocking =>
    ⟨stocking.served, stocking.session, stocking.held, stocking.fresh⟩

include stores

/-- Looking whether the job is cancelled changes nothing that is held. -/
theorem leads_check {before : Execution (Recorded σ) → Prop}
    (served : ∀ e, before e → AllServed view fit e.state)
    (kept
      : ∀ e state,
          before e →
            AllServed view fit state →
              view state.state = view e.state.state → before { e with state })
    : Step.Leads before service.recorded.checkCancelled before
        fun e => AllServed view fit e.state := by
  refine Service.leads_checkCancelled (fun e holds => ?_) served
  have view := (stores.isCancelled e.state.state (served e holds).fits).1
  exact kept e _ holds ((served e holds).isCancelled stores) view

theorem Stocking.create
    (stocking : Stocking view fit cluster s next created [] e)
    (ok : (service.recorded.createEverywhere cluster set e.state).1 = .ok ())
    : Stocking view fit cluster s next (created ++ [set]) []
        { e with state := (service.recorded.createEverywhere cluster set e.state).2 } := by
  have asked := fun n key => @Service.StoresOn.hasSet_create _ _ _ _ stores.recorded cluster
    e.state n key set stocking.served.fits ok
  refine ⟨stocking.served.createEverywhere stores cluster set, stocking.session, ?_, ?_⟩
  · intro key stocks kept node member
    refine (asked node.id key).2.mpr ?_
    rcases stocks with read | ⟨made, listed, rfl⟩ | ⟨stage, none, -⟩
    · exact .inl (stocking.held key (.inl read) kept node member)
    · rcases List.mem_append.mp listed with before | new
      · exact .inl (stocking.held _ (.inr (.inl ⟨made, before, rfl⟩)) kept node member)
      · rw [List.mem_singleton.mp new]
        exact .inr ⟨List.mem_map_of_mem member, rfl⟩
    · simp at none
  · intro nodes made listed read reads kind same
    rcases List.mem_append.mp listed with before | new
    · exact stocking.fresh nodes made before read reads kind same
    · -- the nodes do not create a set that they hold
      obtain rfl := List.mem_singleton.mp new
      obtain ⟨node, member⟩ := List.exists_mem_of_ne_nil _ nodes
      have held := stocking.held read.key (.inl ⟨read, reads, kind, rfl⟩) (by simp) node member
      rw [same, (asked node.id made.key).1 (List.mem_map_of_mem member)] at held
      simp at held

theorem Stocking.leads_createLive
    : Step.Leads (Stocking view fit cluster s next created [])
        (service.recorded.createLive cluster set)
        (Stocking view fit cluster s next (created ++ [set]) [])
        fun e => AllServed view fit e.state :=
  have asking
      : Step.Leads (Stocking view fit cluster s next created [])
          (Step.ask (service.recorded.createEverywhere cluster set))
          (Stocking view fit cluster s next (created ++ [set]) [])
          fun e => AllServed view fit e.state :=
    Step.leads_ask (fun _ stocking ok => stocking.create stores ok)
      fun _ stocking _ _ => stocking.served.createEverywhere stores cluster set
  leads_note.andThen (asking.andThen leads_note)

theorem Stocking.dispatch
    (stocking : Stocking view fit cluster s next created ran e)
    (served : AllServed view fit (service.recorded.dispatch cluster stage e.state).2)
    (ok : (service.recorded.dispatch cluster stage e.state).1 = .ok ())
    : Stocking view fit cluster s next created (ran ++ [stage])
        { e with state := (service.recorded.dispatch cluster stage e.state).2 } := by
  refine ⟨served, stocking.session, ?_, stocking.fresh⟩
  intro key stocks kept node member
  have before : ∀ other ∈ ran, ¬ other.Drops key := fun other earlier =>
    kept other (List.mem_append_left _ earlier)
  refine (stores.recorded.hasSet_dispatch cluster stocking.served.fits ok).mpr ⟨?_, ?_⟩
  · rcases stocks with read | made | ⟨other, listed, writes⟩
    · exact .inl (stocking.held key (.inl read) before node member)
    · exact .inl (stocking.held key (.inr (.inl made)) before node member)
    · rcases List.mem_append.mp listed with earlier | new
      · exact .inl (stocking.held key (.inr (.inr ⟨other, earlier, writes⟩)) before node member)
      · rw [List.mem_singleton.mp new] at writes
        exact .inr ⟨List.mem_map_of_mem member, writes⟩
  · exact fun drops => kept stage (by simp) drops.2

/-- A stage of the round finds what it reads on every node. -/
theorem Stocking.served_dispatch (supply : Session.Supply s next increment)
    (stocking : Stocking view fit cluster s next increment.intermediateSets ran e)
    (known : ran ⊆ increment.stages) (listed : stage ∈ increment.stages)
    : AllServed view fit (service.recorded.dispatch cluster stage e.state).2 := by
  refine stocking.served.dispatch stores cluster fun intermediate node member => ?_
  have kept := fun {other} => @Session.Supply.not_drops _ _ _ stage other supply
    (stocking.fresh (List.ne_nil_of_mem member)) listed intermediate
  exact ⟨stocking.held _ (supply.stocks listed intermediate)
    (fun other earlier => kept (known earlier)) node member, kept listed⟩

theorem Stocking.leads_runStage (supply : Session.Supply s next increment) {rest : List Stage}
    (whole : increment.stages = ran ++ stage :: rest)
    : Step.Leads (Stocking view fit cluster s next increment.intermediateSets ran)
        (service.recorded.runStage cluster stage)
        (Stocking view fit cluster s next increment.intermediateSets (ran ++ [stage]))
        fun e => AllServed view fit e.state := by
  have known : ran ⊆ increment.stages := by simp [whole]
  have listed : stage ∈ increment.stages := by simp [whole]
  have checking
      : Step.Leads (Stocking view fit cluster s next increment.intermediateSets ran)
          service.recorded.checkCancelled
          (Stocking view fit cluster s next increment.intermediateSets ran)
          fun e => AllServed view fit e.state := by
    refine leads_check stores (fun e stocking => stocking.served) ?_
    intro e state stocking served view
    refine ⟨served, stocking.session, fun key stocks kept node member => ?_, stocking.fresh⟩
    rw [view]
    exact stocking.held key stocks kept node member
  have asking
      : Step.Leads (Stocking view fit cluster s next increment.intermediateSets ran)
          (Step.ask (service.recorded.dispatch cluster stage))
          (Stocking view fit cluster s next increment.intermediateSets (ran ++ [stage]))
          fun e => AllServed view fit e.state :=
    Step.leads_ask
      (fun e stocking ok =>
        stocking.dispatch stores (stocking.served_dispatch stores supply known listed) ok)
      fun e stocking _ _ => stocking.served_dispatch stores supply known listed
  exact checking.andThen (leads_note.andThen (asking.andThen leads_note))

omit stores in
/-- Once all stages of a round have run, what sources read from then on is held.
Witness: it was read before or is written, and what is dropped is read no more.
-/
theorem Stocking.inStock (supply : Session.Supply s next increment)
    (stocked : Session.Stocked g first next)
    (stocking
      : Stocking view fit cluster s next increment.intermediateSets increment.stages e)
    : InStock view fit cluster g first e := by
  obtain ⟨served, rfl, held, -⟩ := stocking
  refine ⟨served, stocked, fun set reads kind => held set.key ?_ ?_⟩
  · exact (supply.leaves set reads).imp (fun before => ⟨set, before, kind, rfl⟩) .inr
  · intro stage listed drops
    have unread := (supply.drops stage listed set.key drops).1
    rw [reads.hasConsumers] at unread
    simp at unread

/-- What a round removes is not read any more. -/
theorem InStock.remove (inStock : InStock view fit cluster g first e)
    (unread : e.session.hasConsumers set.key = false)
    (ok : (service.recorded.removeEverywhere cluster set e.state).1 = .ok ())
    : InStock view fit cluster g first
        { e with state := (service.recorded.removeEverywhere cluster set e.state).2 } := by
  refine ⟨inStock.served.removeEverywhere stores cluster set, inStock.stocked, ?_⟩
  intro kept reads kind node member
  refine (stores.recorded.hasSet_remove cluster inStock.served.fits ok).mpr ⟨?_, ?_⟩
  · exact inStock.held kept reads kind node member
  · rintro ⟨-, same⟩
    rw [same, Session.Reads.hasConsumers reads] at unread
    simp at unread

theorem InStock.leads_removeConsumed
    : Step.Leads (InStock view fit cluster g first) (service.recorded.removeConsumed cluster)
        (InStock view fit cluster g first) fun e => AllServed view fit e.state := by
  intro e inStock
  let consumed := e.run.liveSets.filter (!e.session.hasConsumers ·.key)
  have removing
      : Step.Leads
          (fun next => InStock view fit cluster g first next ∧ next.session = e.session)
          (Step.forEach (fun set => Step.ask (service.recorded.removeEverywhere cluster set))
            consumed)
          (fun next => InStock view fit cluster g first next ∧ next.session = e.session)
          (fun next => AllServed view fit next.state) := by
    refine Step.leads_forEach
      (fun _ next => InStock view fit cluster g first next ∧ next.session = e.session) consumed
      fun done set rest whole => Step.leads_ask ?_ ?_
    · rintro now ⟨holds, same⟩ ok
      have member : set ∈ consumed := by simp [whole]
      have unread : now.session.hasConsumers set.key = false := by
        simpa [same] using (List.mem_filter.mp member).2
      exact ⟨holds.remove stores unread ok, same⟩
    · rintro now ⟨holds, -⟩ - -
      exact holds.served.removeEverywhere stores cluster set
  obtain ⟨well, ill⟩ := removing { e with run := e.run.keeping e.session }
    ⟨⟨inStock.served, inStock.stocked, inStock.held⟩, rfl⟩
  exact ⟨fun ok => (well ok).1, ill⟩

theorem Stocking.leads_carryOut (supply : Session.Supply s next increment)
    (stocked : Session.Stocked g first next)
    : Step.Leads (Stocking view fit cluster s next [] [])
        (service.recorded.carryOut cluster increment) (InStock view fit cluster g first)
        fun e => AllServed view fit e.state := by
  have creating := Step.leads_forEach (Stocking view fit cluster s next · [])
    increment.intermediateSets fun _ _ _ _ => leads_createLive stores
  have running := Step.leads_forEach
    (Stocking view fit cluster s next increment.intermediateSets ·) increment.stages
    fun _ _ _ whole => leads_runStage stores supply whole
  refine leads_note.andThen (creating.andThen (running.andThen fun e stocking => ?_))
  exact InStock.leads_removeConsumed stores e (stocking.inStock supply stocked)

/-- Planning a round leaves the stock as it is, and the round finds there what it reads. -/
theorem InStock.planned (inStock : InStock view fit cluster g first e)
    {outcome : Except ExecError Increment}
    (planned : service.recorded.planNext cluster e = (outcome, after))
    : AllServed view fit after.state
      ∧ ∀ increment,
          outcome = .ok increment →
            Session.Supply e.session after.session increment
            ∧ Session.Stocked g first after.session
            ∧ Stocking view fit cluster e.session after.session [] [] after := by
  obtain ⟨-, state, plans⟩ := service.recorded.planNext_spec cluster e
  have same := (stores.recorded.refresh cluster inStock.served.fits).1
  have served := inStock.served.refresh stores cluster
  rw [planned] at state plans
  dsimp only at state plans
  rw [← state] at same served
  refine ⟨served, ?_⟩
  rintro increment rfl
  obtain ⟨stats, outcome⟩ := plans increment rfl
  obtain ⟨supply, stocked⟩ := inStock.stocked.supply outcome
  refine ⟨supply, stocked, served, rfl, ?_, fun _ => by simp [Session.Fresh]⟩
  intro key stocks _ node member
  rw [same]
  rcases stocks with ⟨set, reads, kind, rfl⟩ | ⟨set, none, -⟩ | ⟨stage, none, -⟩
  · exact inStock.held set reads kind node member
  · simp at none
  · simp at none

/-- However rounds end, all of their stages have found what they read. -/
theorem InStock.drive (inStock : InStock view fit cluster g first e)
    : AllServed view fit
        (service.recorded.drive cluster e.session.topology.arena.activeCount e).2.state := by
  have checking
      : Step.Leads (InStock view fit cluster g first) service.recorded.checkCancelled
          (InStock view fit cluster g first) fun e => AllServed view fit e.state := by
    refine leads_check stores (fun e inStock => inStock.served) ?_
    intro e state inStock served view
    refine ⟨served, inStock.stocked, fun set reads kind node member => ?_⟩
    rw [view]
    exact inStock.held set reads kind node member
  have driving := Service.leads_drive checking
    (fun e error next inStock planned => (inStock.planned stores planned).1)
    (fun e increment next inStock planned some => by
      rintro _ rfl
      obtain ⟨supply, stocked, stocking⟩ := (inStock.planned stores planned).2 increment rfl
      exact Stocking.leads_carryOut stores supply stocked _ stocking)
    e.session.topology.arena.activeCount
  exact driving.always (fun _ ended => ended.1.served) ⟨inStock, Nat.le_refl _⟩

end Rounds

-----------------------------------------------------------------------------------------------
-- Runs
-----------------------------------------------------------------------------------------------

/-- In a run no stage wants for what it reads. -/
structure Supplied {σ : Type} (service : Service σ) (view : σ → LocalCluster)
    (cluster : ClusterConfig) (first : Session) (state : σ) : Prop where
  /-- The run does the same with its requests recorded. -/
  recorded
    : service.run cluster first state
        = ((service.recorded.run cluster first (.start state)).1,
            (service.recorded.run cluster first (.start state)).2.map Recorded.state)
  /-- A node that is to run a stage holds the intermediate set that the stage reads. -/
  held
    : ∀ node stage before,
        (.execute node stage, before)
          ∈ (service.recorded.run cluster first (.start state)).2.state.requests →
          stage.source.isIntermediate = true →
            (view before).hasSet node.id stage.source.key = true
  /-- No stage fails for a set that is missing. -/
  answers
    : ∀ node stage before,
        (.execute node stage, before)
          ∈ (service.recorded.run cluster first (.start state)).2.state.requests →
          ∀ key n, (service.execute node stage before).1 ≠ .error (.storage key n .missing)

/-- Every run on simulated nodes, whatever they hold at first, supplies its stages, whichever
request fails on whichever node and whenever the job is cancelled.
Witness: what sources still read is held between rounds, and within each until its stages have run.
-/
theorem run_supplied {σ : Type} {service : Service σ} {view : σ → LocalCluster} {fit : σ → Prop}
    {cluster : ClusterConfig} {jobId : String} {g : Graph} {config : PlannerConfig}
    {first : Session} {state : σ} (started : Session.start jobId g config = .ok first)
    (stores : service.StoresOn view fit) (fits : fit state)
    : Supplied service view cluster first state := by
  obtain ⟨beginning, -, -, -⟩ := Session.beginning_of_start started
  have start : InStock view fit cluster g first ⟨first, .start, .start state⟩ := by
    refine ⟨⟨fits, by simp [Recorded.start]⟩, beginning.stocked, ?_⟩
    rintro set ⟨id, -, -, isSource⟩ kind
    obtain ⟨c, -, -, names⟩ := beginning.exists_scan isSource
    exact absurd (Computation.user_of_set? names) kind
  have served : AllServed view fit
      (service.recorded.run cluster first (.start state)).2.state :=
    (start.drive stores).removeAll stores cluster _ _
  refine ⟨service.mirroredBy_recorded.run cluster first (.start state), ?_, ?_⟩
  · exact fun node stage before asked => (served.served _ asked).2
  · exact fun node stage before asked => (served.served _ asked).execute stores

/-- The nodes of a job that nobody cancels; the second one fails the fourth stage. -/
def brokenNodes : WatchedCluster :=
  { failingNodes with
    cluster := { failingNodes.cluster with failStage := some (1, ⟨3⟩) }
    cancelAfter := none }

/-- The fourth stage reads the output of the join, which a round before it has left on the nodes. -/
theorem brokenNodes_supplied
    : ∃ first node stage before,
        Session.start "job" Session.everyKind .standard = .ok first
        ∧ Supplied WatchedCluster.service WatchedCluster.cluster twoNodes first brokenNodes
        ∧ (.execute node stage, before)
          ∈ (WatchedCluster.service.recorded.run twoNodes first
              (.start brokenNodes)).2.state.requests
        ∧ stage.id = ⟨3⟩
        ∧ stage.source.isIntermediate = true
        ∧ before.cluster.hasSet node.id stage.source.key = true := by
  let reads : Asked → Bool
    | .execute _ stage => stage.id == ⟨3⟩ && stage.source.isIntermediate
    | .statistics _ | .create _ _ | .remove _ _ => false
  have runs : ((Session.start "job" Session.everyKind .standard).toOption.map fun first =>
      (WatchedCluster.service.recorded.run twoNodes first
        (.start brokenNodes)).2.state.requests.any (reads ·.1))
      = some true := by
    decide +kernel
  obtain ⟨first, outcome, runs⟩ := Except.toOption_map_eq_some_iff.mp runs
  simp only [List.any_eq_true] at runs
  obtain ⟨⟨asked, before⟩, listed, found⟩ := runs
  have supplied : Supplied WatchedCluster.service _ twoNodes first brokenNodes :=
    run_supplied outcome WatchedCluster.storesOn trivial
  cases asked with
  | execute node stage =>
      simp only [reads, Bool.and_eq_true, beq_iff_eq] at found
      exact ⟨first, node, stage, before, outcome, supplied, listed, found.1, found.2,
        supplied.held node stage before listed found.2⟩
  | statistics _ | create _ _ | remove _ _ => simp [reads] at found

end DataflowPlan
