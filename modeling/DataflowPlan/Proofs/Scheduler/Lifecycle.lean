import DataflowPlan.Proofs.Scheduler.Holdings

/-! The lifecycle of a job's sets: when a round begins the nodes hold exactly those that are still
to be read, and when a run ends, however it ends, they hold none of them.
-/

namespace DataflowPlan

namespace Site

variable {σ : Type} {site : Site σ}

-----------------------------------------------------------------------------------------------
-- Runs
-----------------------------------------------------------------------------------------------

section Driving

variable {service : Service σ} (acts : service.ActsOn site.view site.fit) {g : Graph}
  {first : Session} {increment : Increment} {key : String} {e next : Execution σ}
  (distinct : (g.atomics.map Atomic.computation).Nodup)
  (single : ∀ a ∈ g.atomics, a.kind = .other → ∃ input, a.ReadsOnly input)
  (keys : (g.atomics.flatMap (g.ownKeys first.jobId)).Nodup)
  (job : g.generatedKeys first.jobId = site.keys)

include acts

theorem Settled.leads_check
    : Step.Leads (site.Settled g first) service.checkCancelled (site.Settled g first)
        site.Covered := by
  refine leads_checkCancelled acts (fun e settled => settled.covered) ?_
  intro e state settled view fits
  refine ⟨fits, settled.wellKeyed, ?_, settled.tracks⟩
  intro node member key generated
  rw [Holds, view]
  exact settled.held node member key generated

theorem Settled.covered_planNext (settled : site.Settled g first e)
    : site.Covered (service.planNext site.cluster e).2 := by
  obtain ⟨run, state, -⟩ := service.planNext_spec site.cluster e
  obtain ⟨view, fits⟩ := view_refresh acts settled.fits
  refine ⟨state ▸ fits, ?_⟩
  rw [run, state]
  intro node member key generated held
  rw [Holds, view] at held
  exact settled.covered.tracked node member key generated held

include distinct single keys job

/-- A round begins with what was held before, and its increment turns the job's sets over. -/
theorem Settled.planned (settled : site.Settled g first e)
    (planned : service.planNext site.cluster e = (.ok increment, next))
    (some : increment.isEmpty = false)
    : Session.Turnover g e.session next.session increment
      ∧ g.generatedKeys e.session.jobId = site.keys
      ∧ Session.WellKeyed g first next.session
      ∧ site.UnderWay e.session next.session increment [] [] next := by
  have same : e.session.jobId = first.jobId := settled.wellKeyed.jobId
  obtain ⟨run, state, plans⟩ := service.planNext_spec site.cluster e
  obtain ⟨view, fits⟩ := view_refresh acts settled.fits
  rw [planned] at run state plans
  obtain ⟨stats, outcome⟩ := plans increment rfl
  obtain ⟨turnover, wellKeyed⟩ :=
    settled.wellKeyed.turnover distinct single (same ▸ keys) outcome some
  refine ⟨turnover, same ▸ job, wellKeyed, state ▸ fits, rfl, ?_, ?_, by simp, by simp, by simp,
    by simp⟩
  · intro node member key generated
    rw [state, Holds, view, ← Holds, settled.held node member key generated]
    simp
  · exact run ▸ settled.tracks

/-- However rounds end, all of the job's sets that are held then are removed by the run. -/
theorem Settled.covered_drive (settled : site.Settled g first e)
    : site.Covered
        (service.drive site.cluster e.session.topology.arena.activeCount e).2 := by
  have driving := Service.leads_drive (Settled.leads_check acts)
    (fun e error next (settled : site.Settled g first e) planned => by
      have covered := settled.covered_planNext acts
      rwa [planned] at covered)
    (fun e increment next settled planned some => by
      rintro _ rfl
      obtain ⟨turnover, same, wellKeyed, underWay⟩ :=
        settled.planned acts distinct single keys job planned some
      exact leads_carryOut acts turnover same wellKeyed _ underWay)
    e.session.topology.arena.activeCount
  exact driving.always (fun _ ended => ended.1.covered) ⟨settled, Nat.le_refl _⟩

/-- A round leaves the job's sets that have consumers to plan, and all sets that its increment makes
for the job are among the job's.
-/
theorem Settled.round (settled : site.Settled g first e)
    (round : service.Round site.cluster e increment next)
    : site.Settled g first next ∧ ∀ set ∈ increment.jobSets, set.key ∈ site.keys := by
  obtain ⟨sources, checked, planned, some, done⟩ := round
  have checking := Settled.leads_check acts e settled
  rw [checked] at checking
  obtain ⟨turnover, same, wellKeyed, underWay⟩ :=
    (checking.1 rfl).planned acts distinct single keys job planned some
  have carrying := leads_carryOut acts turnover same wellKeyed _ underWay
  rw [done] at carrying
  exact ⟨carrying.1 rfl, fun set member => same ▸ turnover.jobSets member⟩

theorem Settled.rounds {start : Execution σ} (settled : site.Settled g first start)
    {out : Increment} (rounds : service.Rounds site.cluster start out e)
    : site.Settled g first e ∧ ∀ set ∈ out.jobSets, set.key ∈ site.keys := by
  induction rounds with
  | start => exact ⟨settled, by simp [Increment.jobSets, Increment.empty]⟩
  | next before round ih =>
      obtain ⟨settled, earlier⟩ := ih
      obtain ⟨after, new⟩ := settled.round acts distinct single keys job round
      refine ⟨after, fun set member => ?_⟩
      exact (Increment.mem_jobSets_append.mp member).elim (earlier set) (new set)

end Driving

/-- Removing sets at the end takes them off all nodes, whatever else goes wrong. -/
theorem holds_removeAll {service : Service σ} (acts : service.ActsOn site.view site.fit)
    {node : ClusterNode} (member : node ∈ site.cluster.nodes) {key : String} (sets : List SetId)
    (outcome : Except ExecError Unit) {state : σ} (fits : site.fit state)
    : site.Holds (service.removeAll site.cluster outcome sets state).2 node.id key
        ↔ site.Holds state node.id key ∧ ¬ ∃ set ∈ sets, set.key = key := by
  induction sets generalizing outcome state with
  | nil => simp [Service.removeAll]
  | cons set rest ih =>
      have removed := @holds_remove _ site _ acts _ fits _ member key set
      have still := fit_remove acts fits set
      have others := fun outcome => ih outcome still
      rw [Service.removeAll]
      split
      all_goals
        next after asked =>
          rw [asked] at removed others
          rw [others, removed]
          simp [and_assoc]

/-- A run begins settled if no node holds a set that planning has to make. -/
theorem settled_start {g : Graph} {first : Session} {state : σ} (beginning : first.Beginning g)
    (named : g.Named) (keys : (g.atomics.flatMap (g.ownKeys first.jobId)).Nodup)
    (job : g.generatedKeys first.jobId = site.keys) (fits : site.fit state)
    (clean : ∀ node ∈ site.cluster.nodes, ∀ key ∈ site.keys, ¬ site.Holds state node.id key)
    : site.Settled g first ⟨first, .start, state⟩ := by
  have unread : ∀ key ∈ site.keys, first.hasConsumers key = false := fun key generated =>
    beginning.not_hasConsumers keys (job ▸ generated)
  refine ⟨fits, beginning.wellKeyed named, ?_, ⟨?_, ?_⟩⟩
  · intro node member key generated
    simp [clean node member key generated, unread key generated]
  all_goals
    intro key generated consumers
    simp [unread key generated] at consumers

end Site

-----------------------------------------------------------------------------------------------
-- The lifecycle of a job's sets
-----------------------------------------------------------------------------------------------

/-- How long the sets live that a run makes for its job. At the beginning of each round every node
holds, of those planned so far, exactly the ones that a registered source with consumers to plan
reads; when the run is over, with or without an error, it holds none.
-/
structure Lifecycle {σ : Type} (service : Service σ) (view : σ → LocalCluster)
    (cluster : ClusterConfig) (g : Graph) (first : Session) (state : σ) : Prop where
  /-- Rounds are those of the run, which goes on from each while a source is left. -/
  follows
    : ∀ out e,
        service.Rounds cluster ⟨first, .start, state⟩ out e →
          e.session.hasSources = true →
            ∃ fuel,
              service.drive cluster first.topology.arena.activeCount ⟨first, .start, state⟩
                = service.drive cluster (fuel + 1) e
  /-- The keys of all sets that are planned for the job, also by a round that breaks off. -/
  planned
    : ∀ out e,
        service.Rounds cluster ⟨first, .start, state⟩ out e →
          (∀ set ∈ out.jobSets, set.key ∈ g.generatedKeys first.jobId)
          ∧ ∀ stats increment next,
              e.session.planIncrement stats = (.ok increment, next) →
                increment.isEmpty = false →
                  ∀ set ∈ increment.jobSets, set.key ∈ g.generatedKeys first.jobId
  kept
    : ∀ out e,
        service.Rounds cluster ⟨first, .start, state⟩ out e →
          ∀ set ∈ out.jobSets,
            ∀ node ∈ cluster.nodes,
              (view e.state).hasSet node.id set.key = true
                ↔ ∃ id own,
                    e.session.sources.get? set.key = some id
                    ∧ (e.session.node id).active ≠ []
                    ∧ (e.session.node id).sourceSet = some own
                    ∧ own.key = set.key
  removed
    : ∀ node ∈ cluster.nodes,
        ∀ key ∈ g.generatedKeys first.jobId,
          (view (service.run cluster first state).2.state).hasSet node.id key = false

/-- Every run on a simulated cluster that holds none of the job's sets keeps to their lifecycle,
whichever stage or statistics fail on whichever node, and whenever the job is cancelled, if
computations are filed under their own names.
Witness: what a round creates, writes and drops is told by its increment, so that what is held
follows the registry; until it is removed, all of it is in the two lists of the run.
-/
theorem run_lifecycle {σ : Type} {service : Service σ} {view : σ → LocalCluster} {fit : σ → Prop}
    {cluster : ClusterConfig} {jobId : String} {g : Graph} {config : PlannerConfig}
    {first : Session} {state : σ} (started : Session.start jobId g config = .ok first)
    (named : g.Named) (distinct : (g.atomics.map Atomic.computation).Nodup)
    (single : ∀ a ∈ g.atomics, a.kind = .other → ∃ input, a.ReadsOnly input)
    (keys : (g.atomics.flatMap (g.ownKeys jobId)).Nodup)
    (acts : service.ActsOn view fit) (fits : fit state)
    (clean
      : ∀ node ∈ cluster.nodes,
          ∀ key ∈ g.generatedKeys jobId, (view state).hasSet node.id key = false)
    : Lifecycle service view cluster g first state := by
  obtain ⟨beginning, rfl, -⟩ := Session.beginning_of_start started
  let site : Site σ := ⟨view, fit, cluster, g.generatedKeys first.jobId⟩
  have settled : site.Settled _ first ⟨first, .start, state⟩ :=
    Site.settled_start beginning named keys rfl fits fun node member key generated => by
      simp [Site.Holds, site, clean node member key generated]
  have acts : service.ActsOn site.view site.fit := acts
  refine ⟨fun out e rounds => rounds.goes_on, ?_, ?_, ?_⟩
  · intro out e rounds
    obtain ⟨settled, known⟩ := settled.rounds acts distinct single keys rfl rounds
    refine ⟨known, fun stats increment next planned some set member => ?_⟩
    have same := settled.wellKeyed.jobId
    obtain ⟨turnover, -⟩ :=
      settled.wellKeyed.turnover distinct single (same ▸ keys) planned some
    exact same ▸ turnover.jobSets member
  · intro out e rounds set made node member
    obtain ⟨settled, known⟩ := settled.rounds acts distinct single keys rfl rounds
    obtain ⟨-, -, keyed, -⟩ := settled.wellKeyed
    refine (settled.held node member set.key (known set made)).trans ?_
    rw [Session.hasConsumers_iff]
    constructor
    · rintro ⟨id, registered, waits⟩
      obtain ⟨own, isSource, same⟩ := keyed.entries set.key id registered
      exact ⟨id, own, registered, waits, isSource, same⟩
    · rintro ⟨id, own, registered, waits, -⟩
      exact ⟨id, registered, waits⟩
  · intro node member key generated
    have covered := settled.covered_drive acts distinct single keys rfl
    rw [Bool.eq_false_iff]
    intro held
    obtain ⟨before, kept⟩ :=
      (Site.holds_removeAll acts member _ (.ok ()) covered.fits).mp held
    exact kept (covered.tracked node member key generated before)

/-- Two nodes with the standard resources. -/
def twoNodes : ClusterConfig where
  partitionRatio := 0.75
  nodes :=
    [0, 1].map fun id =>
      ⟨id, "localhost", 8108 + id, ClusterNode.defaultCores, ClusterNode.defaultMemory⟩

/-- An input on each of the nodes; the second one fails a stage, unless the job is cancelled
first.
-/
def failingNodes : WatchedCluster :=
  let seeded := (LocalCluster.empty.seed 0 "db" "left" 3 4096).seed 1 "db" "right" 2 4096
  { WatchedCluster.ofCluster { seeded with failStage := some (1, ⟨4⟩) } with
    cancelAfter := some 6 }

/-- The run on these nodes leaves a set on each of them after its second round, and is cancelled in
the third one.
-/
theorem failingNodes_lifecycle
    : ∃ first,
        Session.start "job" Session.everyKind .standard = .ok first
        ∧ Lifecycle WatchedCluster.service WatchedCluster.cluster twoNodes Session.everyKind first
            failingNodes
        ∧ (WatchedCluster.service.drive twoNodes 2
              ⟨first, .start, failingNodes⟩).2.state.cluster.hasSet 1 "job:both"
          = true
        ∧ (WatchedCluster.service.run twoNodes first failingNodes).1 = .error .cancelled := by
  have runs : ((Session.start "job" Session.everyKind .standard).toOption.map fun first =>
      ((WatchedCluster.service.drive twoNodes 2
          ⟨first, .start, failingNodes⟩).2.state.cluster.hasSet 1 "job:both",
        (WatchedCluster.service.run twoNodes first failingNodes).1))
      = some (true, .error .cancelled) := by
    decide +kernel
  obtain ⟨first, outcome, runs⟩ := Except.toOption_map_eq_some_iff.mp runs
  simp only [Prod.mk.injEq] at runs
  exact ⟨first, outcome,
    run_lifecycle outcome (Graph.named_ofLists _ _) (by decide) Session.everyKind_readsOnly
      (by decide +kernel) WatchedCluster.actsOn ⟨rfl, rfl⟩ (by decide +kernel),
    runs⟩

/-- What a node holds, which is sorted only if it is not in order yet. -/
def LocalCluster.collectSorted (node : ClusterNode) : Request LocalCluster (List SetReport) :=
  fun c =>
    let held := (c.sets.filter (·.1.1 == node.id)).map Prod.snd
    if c.failStats == some node.id then (.error (.node node.id .noStatistics), c)
    else (.ok (if held.Pairwise (reportLe · ·) then held else held.mergeSort reportLe), c)

-- the sort is by well-founded recursion, on which the kernel makes no progress
theorem LocalCluster.service_eq_sorted : service = { service with collect := collectSorted } := by
  have same : collect = collectSorted := by
    funext node c
    rw [collect, collectSorted, reports]
    split
    · rfl
    · split
      · next sorted => rw [List.mergeSort_of_pairwise sorted]
      · rfl
  rw [← same]
  rfl

/-- Two selections whose computations call themselves `cb`. Two writes read what the first one
makes, and none what the second one makes.
-/
def namesakeSelections : Graph :=
  .renamed
    (.ofLists
      [.scan "scan_in" "db" "in", .scan "scan_more" "db" "more", .ofKind "ca" .selection,
        .ofKind "cb" .selection, (Computation.ofKind "w1" .write).setOutput "out" "o1",
        (Computation.ofKind "w2" .write).setOutput "out" "o2"]
      [.scan "in" "scan_in", .scan "more" "scan_more", .apply "a" "in" "ca",
        .apply "o1" "a" "w1", .apply "o2" "a" "w2", .apply "b" "more" "cb"])
    "ca" "cb"

/-- A small and a large input on one of the nodes. -/
def unevenInputs : LocalCluster :=
  (LocalCluster.empty.seed 0 "db" "in" 1 4096).seed 0 "db" "more" 100000 4096

/-- In this run the second selection writes the set that the first one made and that was removed
since, so that the node still holds it when the run is over.
-/
theorem namesakeSelections_leavesSet
    : ∃ first report,
        Session.start "job" namesakeSelections .standard = .ok first
        ∧ (namesakeSelections.atomics.map Atomic.computation).Nodup
        ∧ (∀ a ∈ namesakeSelections.atomics, a.kind = .other → ∃ input, a.ReadsOnly input)
        ∧ (namesakeSelections.atomics.flatMap (namesakeSelections.ownKeys "job")).Nodup
        ∧ (∀ node ∈ twoNodes.nodes,
            ∀ key ∈ namesakeSelections.generatedKeys "job",
              unevenInputs.hasSet node.id key = false)
        ∧ (LocalCluster.service.run twoNodes first unevenInputs).1 = .ok report
        ∧ (LocalCluster.service.run twoNodes first unevenInputs).2.state.hasSet 0 "job:a" = true
        ∧ ¬ Lifecycle LocalCluster.service id twoNodes namesakeSelections first unevenInputs := by
  have runs : (Session.start "job" namesakeSelections .standard).toOption.any (fun first =>
      let (result, last) := LocalCluster.service.run twoNodes first unevenInputs
      result.isOk && last.state.hasSet 0 "job:a") = true := by
    rw [LocalCluster.service_eq_sorted]
    decide +kernel
  obtain ⟨first, outcome, runs⟩ := Except.toOption_any_iff.mp runs
  obtain ⟨-, jobId, -⟩ := Session.beginning_of_start outcome
  simp only [Bool.and_eq_true] at runs
  obtain ⟨isOk, held⟩ := runs
  obtain ⟨report, result⟩ := Except.isOk_iff.mp isOk
  refine ⟨first, report, outcome, by decide, Graph.readsOnly_of_length (by decide),
    by decide +kernel, by decide +kernel, result, held, fun lives => ?_⟩
  have gone := lives.removed _ (List.mem_cons_self ..) "job:a" (by rw [jobId]; decide +kernel)
  exact absurd (held.symm.trans gone) (by decide)

end DataflowPlan
