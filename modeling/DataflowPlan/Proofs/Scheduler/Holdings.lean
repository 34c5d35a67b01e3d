import DataflowPlan.Proofs.Cluster.Holdings
import DataflowPlan.Proofs.Scheduler.Rounds
import DataflowPlan.Proofs.Session.Turnover

/-! What the nodes hold of a job's sets while a round is carried out, step by step, and what the run
keeps in mind of them.
-/

namespace DataflowPlan

-----------------------------------------------------------------------------------------------
-- What is held
-----------------------------------------------------------------------------------------------

/-- The run keeps in mind every set of the job that a source in the session still reads: hash tables
of aggregates as such, all others as live.
-/
structure Run.Tracks (run : Run) (keys : List String) (s : Session) : Prop where
  live
    : ∀ key ∈ keys,
        s.hasConsumers key = true →
          s.readsResult key = false → ∃ set ∈ run.liveSets, set.key = key
  results
    : ∀ key ∈ keys,
        s.hasConsumers key = true →
          s.readsResult key = true → ∃ set ∈ run.aggregationResults, set.key = key

/-- The run keeps in mind the hash table that the stage leaves, if it leaves one. -/
def Run.Notes (run : Run) (stage : Stage) : Prop :=
  ∀ set,
    stage.sink? = some set → set.isAggregationResult = true → set ∈ run.aggregationResults

/-- The run without the sets that nothing in the session reads any more. -/
def Run.keeping (run : Run) (s : Session) : Run :=
  { run with
    aggregationResults := run.aggregationResults.filter (s.hasConsumers ·.key)
    liveSets := run.liveSets.filter (s.hasConsumers ·.key) }

/-- A set with the key is among those that the run removes in the end. -/
def Run.Covers (run : Run) (key : String) : Prop :=
  ∃ set ∈ run.liveSets ++ run.aggregationResults, set.key = key

namespace Run

variable {run : Run} {set : SetId}

theorem covers_of_live (live : set ∈ run.liveSets) : run.Covers set.key :=
  ⟨set, List.mem_append_left _ live, rfl⟩

theorem covers_of_result (result : set ∈ run.aggregationResults) : run.Covers set.key :=
  ⟨set, List.mem_append_right _ result, rfl⟩

/-- What is still read is removed in the end, if it is not before. -/
theorem Tracks.covers {keys : List String} {s : Session} {key : String} (tracks : run.Tracks keys s)
    (generated : key ∈ keys) (consumers : s.hasConsumers key = true)
    : run.Covers key := by
  cases result : s.readsResult key with
  | false =>
      obtain ⟨set, live, rfl⟩ := tracks.live key generated consumers result
      exact covers_of_live live
  | true =>
      obtain ⟨set, kept, rfl⟩ := tracks.results key generated consumers result
      exact covers_of_result kept

end Run

/-- Where a job is carried out: the simulated cluster behind a service, as far as its state fits,
the nodes that are configured, and the keys of the job's sets.
-/
structure Site (σ : Type) where
  view : σ → LocalCluster
  fit : σ → Prop
  cluster : ClusterConfig
  keys : List String

namespace Site

variable {σ : Type} (site : Site σ)

def Holds (state : σ) (n : Nat) (key : String) : Prop :=
  (site.view state).hasSet n key = true

/-- Every set of the job that some node holds is one that the run will remove. -/
structure Covered (e : Execution σ) : Prop where
  fits : site.fit e.state
  tracked
    : ∀ node ∈ site.cluster.nodes,
        ∀ key ∈ site.keys,
          site.Holds e.state node.id key → e.run.Covers key

/-- Between two rounds the nodes hold the job's sets that have consumers to plan. -/
structure Settled (g : Graph) (first : Session) (e : Execution σ) : Prop where
  fits : site.fit e.state
  wellKeyed : Session.WellKeyed g first e.session
  held
    : ∀ node ∈ site.cluster.nodes,
        ∀ key ∈ site.keys,
          site.Holds e.state node.id key ↔ e.session.hasConsumers key = true
  tracks : e.run.Tracks site.keys e.session

/-- In a round that has created some sets of its increment, and run some of its stages, the nodes
hold what they held before, those sets, and what those stages have written, less what they have
dropped.
-/
structure UnderWay (s next : Session) (increment : Increment) (created : List SetId)
    (ran : List Stage) (e : Execution σ) : Prop where
  fits : site.fit e.state
  session : e.session = next
  held
    : ∀ node ∈ site.cluster.nodes,
        ∀ key ∈ site.keys,
          site.Holds e.state node.id key
            ↔ (s.hasConsumers key = true ∨ (∃ set ∈ created, set.key = key)
                ∨ ∃ stage ∈ ran, stage.Writes key)
              ∧ ¬ ∃ stage ∈ ran, stage.Drops key
  tracks : e.run.Tracks site.keys s
  live : ∀ set ∈ created, set ∈ e.run.liveSets
  results : ∀ stage ∈ ran, e.run.Notes stage
  known : ∀ stage ∈ ran, stage ∈ increment.stages
  complete : ran ≠ [] → created = increment.intermediateSets

/-- After some removals the nodes hold what they held before, less the sets of those keys. -/
structure Without (sets : List SetId) (before e : Execution σ) : Prop where
  fits : site.fit e.state
  session : e.session = before.session
  run : e.run = before.run
  held
    : ∀ node ∈ site.cluster.nodes,
        ∀ key,
          site.Holds e.state node.id key
            ↔ site.Holds before.state node.id key ∧ ¬ ∃ set ∈ sets, set.key = key

variable {site}

theorem Settled.covered {g : Graph} {first : Session} {e : Execution σ}
    (settled : site.Settled g first e)
    : site.Covered e :=
  ⟨settled.fits, fun node member key generated held =>
    settled.tracks.covers generated ((settled.held node member key generated).mp held)⟩

theorem Without.refl {e : Execution σ} (fits : site.fit e.state) : site.Without [] e e :=
  ⟨fits, rfl, rfl, by simp⟩

theorem exists_mem_concat {α : Type} {P : α → Prop} {items : List α} {last : α}
    : (∃ item ∈ items ++ [last], P item) ↔ (∃ item ∈ items, P item) ∨ P last := by
  simp [or_and_right, exists_or]

-----------------------------------------------------------------------------------------------
-- Requests
-----------------------------------------------------------------------------------------------

section Requests

variable {service : Service σ} (acts : service.ActsOn site.view site.fit) {state : σ}
  (fits : site.fit state) {node : ClusterNode} (member : node ∈ site.cluster.nodes) {key : String}

include acts fits

theorem fit_create (set : SetId)
    : site.fit (service.createEverywhere site.cluster set state).2 :=
  (acts.createEverywhere site.cluster set state fits).2.2

theorem fit_remove (set : SetId)
    : site.fit (service.removeEverywhere site.cluster set state).2 :=
  (acts.removeEverywhere site.cluster set state fits).2.2

theorem fit_dispatch (stage : Stage)
    : site.fit (service.dispatch site.cluster stage state).2 :=
  (acts.dispatch site.cluster stage state fits).2.2

theorem remove_ok (set : SetId)
    : (service.removeEverywhere site.cluster set state).1 = .ok () :=
  (acts.removeEverywhere site.cluster set state fits).1.trans
    (LocalCluster.removeEverywhere_ok site.cluster set _)

theorem view_refresh
    : site.view (service.refresh site.cluster state).2 = site.view state
      ∧ site.fit (service.refresh site.cluster state).2 := by
  obtain ⟨-, after, still⟩ := acts.refresh site.cluster state fits
  exact ⟨after.trans (LocalCluster.refresh_state site.cluster _), still⟩

theorem holds_of_dispatch {n : Nat} (stage : Stage)
    (held : site.Holds (service.dispatch site.cluster stage state).2 n key)
    : site.Holds state n key ∨ stage.Writes key := by
  rw [Holds, (acts.dispatch site.cluster stage state fits).2.1] at held
  exact LocalCluster.hasSet_of_dispatch site.cluster stage held

include member

theorem holds_create (set : SetId)
    : site.Holds (service.createEverywhere site.cluster set state).2 node.id key
        ↔ site.Holds state node.id key ∨ set.key = key := by
  have configured : node.id ∈ site.cluster.nodes.map ClusterNode.id := List.mem_map_of_mem member
  rw [Holds, (acts.createEverywhere site.cluster set state fits).2.1,
    LocalCluster.hasSet_createEverywhere]
  simp only [configured, true_and]
  rfl

theorem holds_remove (set : SetId)
    : site.Holds (service.removeEverywhere site.cluster set state).2 node.id key
        ↔ site.Holds state node.id key ∧ set.key ≠ key := by
  have configured : node.id ∈ site.cluster.nodes.map ClusterNode.id := List.mem_map_of_mem member
  rw [Holds, (acts.removeEverywhere site.cluster set state fits).2.1,
    LocalCluster.hasSet_removeEverywhere]
  simp only [configured, true_and]
  rfl

theorem holds_dispatch {stage : Stage}
    (ok : (service.dispatch site.cluster stage state).1 = .ok ())
    : site.Holds (service.dispatch site.cluster stage state).2 node.id key
        ↔ (site.Holds state node.id key ∨ stage.Writes key) ∧ ¬ stage.Drops key := by
  have configured : node.id ∈ site.cluster.nodes.map ClusterNode.id := List.mem_map_of_mem member
  obtain ⟨answer, after, -⟩ := acts.dispatch site.cluster stage state fits
  rw [Holds, after, LocalCluster.hasSet_dispatch site.cluster stage (answer.symm.trans ok)]
  simp only [configured, true_and]
  rfl

end Requests

-----------------------------------------------------------------------------------------------
-- Rounds
-----------------------------------------------------------------------------------------------

section Round

variable {service : Service σ} (acts : service.ActsOn site.view site.fit) {g : Graph}
  {first s next : Session} {increment : Increment} {created : List SetId} {ran : List Stage}
  {stage : Stage} {set : SetId} {key : String} {e : Execution σ}
  (turnover : Session.Turnover g s next increment) (job : g.generatedKeys s.jobId = site.keys)

/-- A round under way depends on the cluster in view alone, and on what the run keeps in mind. -/
theorem UnderWay.of_view (underWay : site.UnderWay s next increment created ran e) {state : σ}
    {run : Run} (view : site.view state = site.view e.state) (fits : site.fit state)
    (live : e.run.liveSets ⊆ run.liveSets)
    (results : e.run.aggregationResults ⊆ run.aggregationResults)
    : site.UnderWay s next increment created ran { e with state, run } := by
  refine ⟨fits, underWay.session, ?_, ⟨?_, ?_⟩, ?_, ?_, underWay.known, underWay.complete⟩
  · intro node member key generated
    rw [Holds, view]
    exact underWay.held node member key generated
  · intro key generated consumers result
    obtain ⟨set, tracked, same⟩ := underWay.tracks.live key generated consumers result
    exact ⟨set, live tracked, same⟩
  · intro key generated consumers result
    obtain ⟨set, tracked, same⟩ := underWay.tracks.results key generated consumers result
    exact ⟨set, results tracked, same⟩
  · exact fun set member => live (underWay.live set member)
  · exact fun stage member set sink table => results (underWay.results stage member set sink table)

section Tracked

include turnover job

/-- What a stage writes for the job is declared, or a hash table that the run keeps in mind. -/
theorem covers_of_writes {run : Run} (listed : stage ∈ increment.stages)
    (declared : ∀ set ∈ increment.intermediateSets, set ∈ run.liveSets)
    (results : run.Notes stage) (generated : key ∈ site.keys) (writes : stage.Writes key)
    : run.Covers key := by
  obtain ⟨sink, written, rfl⟩ := writes
  rcases turnover.sinks stage listed sink written with ⟨-, made⟩ | ⟨table, -, -⟩
  · obtain ⟨set, member, same⟩ := made (job ▸ generated)
    exact same ▸ Run.covers_of_live (declared set member)
  · exact Run.covers_of_result (results sink written table)

theorem UnderWay.covered (underWay : site.UnderWay s next increment created ran e)
    : site.Covered e := by
  refine ⟨underWay.fits, ?_⟩
  intro node member key generated held
  rcases ((underWay.held node member key generated).mp held).1 with
    consumers | ⟨set, made, rfl⟩ | ⟨stage, listed, writes⟩
  · exact underWay.tracks.covers generated consumers
  · exact Run.covers_of_live (underWay.live set made)
  · have complete := underWay.complete (List.ne_nil_of_mem listed)
    exact covers_of_writes turnover job (underWay.known stage listed)
      (fun set member => underWay.live set (complete ▸ member)) (underWay.results stage listed)
      generated writes

/-- Once a round has run its stages, the job's sets with consumers left are those that are held and
not among the live sets without any.
-/
theorem UnderWay.held_iff
    (underWay : site.UnderWay s next increment increment.intermediateSets increment.stages e)
    {node : ClusterNode} (member : node ∈ site.cluster.nodes) (generated : key ∈ site.keys)
    : site.Holds e.state node.id key
          ∧ ¬ (∃ set ∈ e.run.liveSets, next.hasConsumers set.key = false ∧ set.key = key)
        ↔ next.hasConsumers key = true := by
  rw [underWay.held node member key generated]
  constructor
  · rintro ⟨⟨held, kept⟩, read⟩
    by_contra none
    rw [Bool.not_eq_true] at none
    have unread : ∀ set ∈ e.run.liveSets, set.key ≠ key := by
      rintro set live rfl
      exact read ⟨set, live, none, rfl⟩
    rcases held with consumers | ⟨set, made, same⟩ | ⟨stage, listed, sink, written, rfl⟩
    · cases result : s.readsResult key with
      | false =>
          obtain ⟨set, live, same⟩ := underWay.tracks.live key generated consumers result
          exact unread set live same
      | true => exact kept (turnover.spent key consumers none result)
    · exact unread set (underWay.live set made) same
    · rcases turnover.sinks stage listed sink written with ⟨-, made⟩ | ⟨-, -, consumers⟩
      · obtain ⟨set, declared, same⟩ := made (job ▸ generated)
        exact unread set (underWay.live set declared) same
      · rw [none] at consumers
        simp at consumers
  · intro consumers
    refine ⟨⟨?_, ?_⟩, ?_⟩
    · rcases turnover.made key (job ▸ generated) consumers with
        ⟨before, -⟩ | ⟨-, set, declared, same⟩ | ⟨-, stage, listed, sink, written, -, same⟩
      · exact .inl before
      · exact .inr (.inl ⟨set, declared, same⟩)
      · exact .inr (.inr ⟨stage, listed, sink, written, same⟩)
    · rintro ⟨stage, listed, set, drops, rfl⟩
      rw [(turnover.drops stage listed set drops).1] at consumers
      simp at consumers
    · rintro ⟨set, -, none, rfl⟩
      rw [none] at consumers
      simp at consumers

theorem UnderWay.tracks_next
    (underWay : site.UnderWay s next increment increment.intermediateSets increment.stages e)
    : (e.run.keeping next).Tracks site.keys next := by
  refine ⟨?_, ?_⟩
  · intro key generated consumers result
    have live : ∃ set ∈ e.run.liveSets, set.key = key := by
      rcases turnover.made key (job ▸ generated) consumers with
        ⟨before, same⟩ | ⟨-, set, declared, same⟩ | ⟨table, -⟩
      · exact underWay.tracks.live key generated before (same.symm.trans result)
      · exact ⟨set, underWay.live set declared, same⟩
      · rw [result] at table
        simp at table
    obtain ⟨set, member, rfl⟩ := live
    exact ⟨set, List.mem_filter.mpr ⟨member, consumers⟩, rfl⟩
  · intro key generated consumers result
    have kept : ∃ set ∈ e.run.aggregationResults, set.key = key := by
      rcases turnover.made key (job ▸ generated) consumers with
        ⟨before, same⟩ | ⟨plain, -⟩ | ⟨-, stage, listed, sink, written, table, same⟩
      · exact underWay.tracks.results key generated before (same.symm.trans result)
      · rw [result] at plain
        simp at plain
      · exact ⟨sink, underWay.results stage listed sink written table, same⟩
    obtain ⟨set, member, rfl⟩ := kept
    exact ⟨set, List.mem_filter.mpr ⟨member, consumers⟩, rfl⟩

end Tracked

include acts

/-- Looking whether the job is cancelled changes nothing that is kept in view. -/
theorem leads_checkCancelled {before : Execution σ → Prop}
    (covered : ∀ e, before e → site.Covered e)
    (kept
      : ∀ e state,
          before e → site.view state = site.view e.state → site.fit state →
            before { e with state })
    : Step.Leads before service.checkCancelled before site.Covered := by
  refine Service.leads_checkCancelled (fun e holds => ?_) covered
  obtain ⟨view, fits⟩ := acts.isCancelled e.state (covered e holds).fits
  exact kept e _ holds view fits

include turnover job

omit turnover job in
theorem UnderWay.create (underWay : site.UnderWay s next increment created [] e)
    (live : set ∈ e.run.liveSets)
    : site.UnderWay s next increment (created ++ [set]) []
        { e with state := (service.createEverywhere site.cluster set e.state).2 } := by
  refine ⟨fit_create acts underWay.fits set, underWay.session, ?_, underWay.tracks, ?_, by simp,
    by simp, by simp⟩
  · intro node member key generated
    rw [holds_create acts underWay.fits member, underWay.held node member key generated,
      exists_mem_concat]
    simp [or_assoc]
  · intro other member
    rcases List.mem_append.mp member with before | new
    · exact underWay.live other before
    · exact List.mem_singleton.mp new ▸ live

theorem leads_createLive
    : Step.Leads (site.UnderWay s next increment created [])
        (service.createLive site.cluster set)
        (site.UnderWay s next increment (created ++ [set]) []) site.Covered := by
  have noting
      : Step.Leads (site.UnderWay s next increment created [])
          (Step.note fun run => { run with liveSets := run.liveSets ++ [set] })
          (fun e => site.UnderWay s next increment created [] e ∧ set ∈ e.run.liveSets)
          site.Covered := by
    refine Step.leads_note fun e underWay => ⟨?_, by simp⟩
    exact underWay.of_view rfl underWay.fits (by simp) (by simp)
  have asking
      : Step.Leads
          (fun e => site.UnderWay s next increment created [] e ∧ set ∈ e.run.liveSets)
          (Step.ask (service.createEverywhere site.cluster set))
          (site.UnderWay s next increment (created ++ [set]) []) site.Covered :=
    -- a set that not all nodes come to create is removed all the same
    Step.leads_ask (fun e ⟨underWay, live⟩ _ => underWay.create acts live)
      fun e ⟨underWay, live⟩ _ _ => (underWay.create acts live).covered turnover job
  have counting
      : Step.Leads (site.UnderWay s next increment (created ++ [set]) [])
          (Step.note fun run => { run with setsCreated := run.setsCreated + 1 })
          (site.UnderWay s next increment (created ++ [set]) []) site.Covered :=
    Step.leads_note fun e underWay => underWay.of_view rfl underWay.fits (by simp) (by simp)
  exact noting.andThen (asking.andThen counting)

omit job in
theorem UnderWay.dispatch
    (underWay : site.UnderWay s next increment increment.intermediateSets ran e)
    (listed : stage ∈ increment.stages) (results : e.run.Notes stage)
    (ok : (service.dispatch site.cluster stage e.state).1 = .ok ())
    : site.UnderWay s next increment increment.intermediateSets (ran ++ [stage])
        { e with state := (service.dispatch site.cluster stage e.state).2 } := by
  refine ⟨fit_dispatch acts underWay.fits stage, underWay.session, ?_, underWay.tracks,
    underWay.live, ?_, ?_, fun _ => rfl⟩
  · intro node member key generated
    -- what the stage writes is none of what was dropped before it
    have apart : stage.Writes key → ¬ ∃ other ∈ ran, other.Drops key := by
      rintro ⟨sink, written, rfl⟩ ⟨other, earlier, set, drops, same⟩
      have elsewhere := (turnover.drops other (underWay.known other earlier) set drops).2.2
      exact elsewhere stage listed sink written same.symm
    rw [holds_dispatch acts underWay.fits member ok, underWay.held node member key generated,
      exists_mem_concat, exists_mem_concat]
    grind only
  · intro other member
    rcases List.mem_append.mp member with earlier | new
    · exact underWay.results other earlier
    · exact List.mem_singleton.mp new ▸ results
  · intro other member
    rcases List.mem_append.mp member with earlier | new
    · exact underWay.known other earlier
    · exact List.mem_singleton.mp new ▸ listed

/-- Also if some node fails a stage, the run keeps in mind what others have written. -/
theorem UnderWay.covered_dispatch
    (underWay : site.UnderWay s next increment increment.intermediateSets ran e)
    (listed : stage ∈ increment.stages) (results : e.run.Notes stage)
    : site.Covered { e with state := (service.dispatch site.cluster stage e.state).2 } := by
  refine ⟨fit_dispatch acts underWay.fits stage, ?_⟩
  intro node member key generated held
  rcases holds_of_dispatch acts underWay.fits stage held with earlier | writes
  · exact (underWay.covered turnover job).tracked node member key generated earlier
  · exact covers_of_writes turnover job listed underWay.live results generated writes

theorem leads_runStage {rest : List Stage} (whole : increment.stages = ran ++ stage :: rest)
    : Step.Leads (site.UnderWay s next increment increment.intermediateSets ran)
        (service.runStage site.cluster stage)
        (site.UnderWay s next increment increment.intermediateSets (ran ++ [stage]))
        site.Covered := by
  have listed : stage ∈ increment.stages := by simp [whole]
  have checking
      : Step.Leads (site.UnderWay s next increment increment.intermediateSets ran)
          service.checkCancelled
          (site.UnderWay s next increment increment.intermediateSets ran) site.Covered :=
    leads_checkCancelled acts (fun e underWay => underWay.covered turnover job)
      fun e state underWay view fits =>
        underWay.of_view view fits (List.Subset.refl _) (List.Subset.refl _)
  have noting
      : Step.Leads (site.UnderWay s next increment increment.intermediateSets ran)
          (Step.note fun run =>
            { run with
              aggregationResults :=
                run.aggregationResults
                  ++ (stage.sink?.filter SetId.isAggregationResult).toList })
          (fun e =>
            site.UnderWay s next increment increment.intermediateSets ran e ∧ e.run.Notes stage)
          site.Covered := by
    refine Step.leads_note fun e underWay => ⟨?_, ?_⟩
    · exact underWay.of_view rfl underWay.fits (by simp) (by simp)
    · intro set sink table
      simp [sink, Option.filter, table]
  have asking
      : Step.Leads
          (fun e =>
            site.UnderWay s next increment increment.intermediateSets ran e ∧ e.run.Notes stage)
          (Step.ask (service.dispatch site.cluster stage))
          (site.UnderWay s next increment increment.intermediateSets (ran ++ [stage]))
          site.Covered :=
    Step.leads_ask
      (fun e ⟨underWay, results⟩ ok => underWay.dispatch acts turnover listed results ok)
      fun e ⟨underWay, results⟩ _ _ => underWay.covered_dispatch acts turnover job listed results
  have counting
      : Step.Leads (site.UnderWay s next increment increment.intermediateSets (ran ++ [stage]))
          (Step.note fun run => { run with dispatched := run.dispatched ++ [stage] })
          (site.UnderWay s next increment increment.intermediateSets (ran ++ [stage]))
          site.Covered :=
    Step.leads_note fun e underWay => underWay.of_view rfl underWay.fits (by simp) (by simp)
  exact checking.andThen (noting.andThen (asking.andThen counting))

omit turnover job in
/-- Sets are removed from the nodes without fail. -/
theorem leads_remove (sets : List SetId) (before : Execution σ)
    : Step.Leads (site.Without [] before)
        (Step.forEach (fun set => Step.ask (service.removeEverywhere site.cluster set)) sets)
        (site.Without sets before) fun _ => False := by
  refine Step.leads_forEach (site.Without · before) sets fun done set rest _ =>
    Step.leads_ask ?_ ?_
  · intro e without _
    refine ⟨fit_remove acts without.fits set, without.session, without.run, ?_⟩
    intro node member key
    rw [holds_remove acts without.fits member, without.held node member, exists_mem_concat,
      not_or, and_assoc]
  · intro e without error fails
    rw [remove_ok acts without.fits] at fails
    simp at fails

/-- Once its stages have run, what a round removes is what nothing reads any more. -/
theorem leads_removeConsumed (wellKeyed : Session.WellKeyed g first next)
    : Step.Leads (site.UnderWay s next increment increment.intermediateSets increment.stages)
        (service.removeConsumed site.cluster) (site.Settled g first) site.Covered := by
  intro e underWay
  obtain rfl := underWay.session
  have removed := leads_remove acts (e.run.liveSets.filter (!e.session.hasConsumers ·.key))
    { e with run := e.run.keeping e.session } _ (.refl underWay.fits)
  refine ⟨fun ok => ?_, fun error fails => (removed.2 error fails).elim⟩
  have without
      : site.Without (e.run.liveSets.filter (!e.session.hasConsumers ·.key))
          { e with run := e.run.keeping e.session } (service.removeConsumed site.cluster e).2 :=
    removed.1 ok
  refine ⟨without.fits, ?_, ?_, ?_⟩
  · rw [without.session]
    exact wellKeyed
  · intro node member key generated
    rw [without.held node member, without.session,
      ← underWay.held_iff turnover job member generated]
    simp [and_assoc]
  · rw [without.session, without.run]
    exact underWay.tracks_next turnover job

/-- A round that is carried out leaves the job's sets that have consumers to plan, and one that
breaks off leaves none but those that the run will remove.
-/
theorem leads_carryOut (wellKeyed : Session.WellKeyed g first next)
    : Step.Leads (site.UnderWay s next increment [] []) (service.carryOut site.cluster increment)
        (site.Settled g first) site.Covered := by
  have counting
      : Step.Leads (site.UnderWay s next increment [] [])
          (Step.note fun run => { run with increments := run.increments + 1 })
          (site.UnderWay s next increment [] []) site.Covered :=
    Step.leads_note fun e underWay => underWay.of_view rfl underWay.fits (by simp) (by simp)
  have creating := Step.leads_forEach (site.UnderWay s next increment · [])
    increment.intermediateSets fun _ _ _ _ => leads_createLive acts turnover job
  have running := Step.leads_forEach
    (site.UnderWay s next increment increment.intermediateSets ·) increment.stages
    fun _ _ _ whole => leads_runStage acts turnover job whole
  exact counting.andThen (creating.andThen (running.andThen
    (leads_removeConsumed acts turnover job wellKeyed)))

end Round

end Site

end DataflowPlan
