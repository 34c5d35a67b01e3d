import DataflowPlan.Proofs.Analysis.Building
import DataflowPlan.Proofs.Analysis.StageOrder
import DataflowPlan.Proofs.Session.JoinProtocol

/-! How joins are carried out, as their computations record it. A record is that of the table that
was built last for the computation; joins that share a computation share the record.
-/

namespace DataflowPlan.Session

variable {g : Graph} {first s : Session} {followed : List Arena.Edge} {stats : Statistics}
  {skip : List String} {key : String} {source last p : NodeId} {init : List NodeId}
  {reached next : StageId} {segment inner : Segment} {set : SetId} {stages : List Stage}
  {strategy : JoinStrategy} {hashSet name : String}

/-- What the tables that were built so far tell of computations and joins. -/
structure StrategiesKept (g : Graph) (s : Session) (stages : List Stage) : Prop where
  records
    : ∀ name given,
        g.computation name = .ok given →
          ∃ c,
            s.topology.graph.computation name = .ok c
            ∧ c.Records given name (buildings stages)
  listed
    : ∀ p strategy hashSet,
        (s.node p).IsStarted strategy hashSet →
          ((s.node p).atomic.computation, strategy) ∈ buildings stages
  owned
    : ∀ name strategy,
        (name, strategy) ∈ buildings stages →
          ∃ p hashSet,
            (s.node p).atomic.computation = name ∧ (s.node p).IsStarted strategy hashSet

theorem Beginning.strategiesKept (beginning : s.Beginning g) : StrategiesKept g s [] := by
  refine ⟨fun name given found => ⟨given, ?_, .refl given name⟩, ?_, fun _ _ built => ?_⟩
  · rw [beginning.graph]
    exact found
  · exact fun p strategy hashSet started => absurd started (beginning.not_started p _ _)
  · simp [buildings] at built

section Planned

variable (reaches : ReachesNamed g first s followed)
  (course : (s.view stats).Course source init last segment)

include reaches course

/-- A join is started for its own computation. -/
theorem ReachesNamed.computation_of_start
    (starts : .startJoin p name strategy hashSet ∈ segment.changes)
    : (s.node p).atomic.computation = name := by
  obtain ⟨rfl, kind⟩ := course.starts starts rfl
  obtain ⟨closing, closes, -, changes⟩ := course.closes
  rcases closes.changes with ⟨-, c, strategy', hashSet', found, only⟩ | ⟨other, -⟩
  · have same : Change.startJoin p name strategy hashSet
        = .startJoin p c.name strategy' hashSet' := by
      rw [changes, only] at starts
      simpa using starts
    obtain ⟨-, rfl, -, -⟩ := Change.startJoin.inj same
    exact (reaches.named _ _ (Graph.computation_eq_ok.mp found)).symm
  · exact absurd kind other

/-- A planned pipeline goes on with what is known of the tables. -/
theorem StrategiesKept.commit (kept : StrategiesKept g s stages)
    (builds : View.BuildsStarted segment)
    : StrategiesKept g (s.commit key source reached segment) (stages ++ segment.stages) := by
  have frame := course.frame
  have atomic : ∀ q, ((s.commit key source reached segment).node q).atomic
      = (s.node q).atomic := by
    intro q
    rw [node_commit]
    exact frame.atomic q
  have built : buildings (stages ++ segment.stages)
      = buildings stages ++ segment.changes.filterMap Change.building? := by
    rw [← builds, buildings, List.filterMap_append]
    rfl
  refine ⟨?_, ?_, ?_⟩
  · intro name given found
    obtain ⟨d, there, before⟩ := kept.records name given found
    obtain ⟨c, after, later⟩ := records_foldl segment.changes s.topology there
    rw [built]
    refine ⟨c, ?_, later.trans before⟩
    rw [topology_commit, Segment.graph_apply]
    exact after
  · intro q strategy hashSet started
    rw [built, atomic]
    rw [PhysicalNode.IsStarted, node_commit] at started
    rcases Segment.isStarted_apply started with before | ⟨name, starts⟩
    · exact List.mem_append_left _ (kept.listed q strategy hashSet before)
    · refine List.mem_append_right _ (List.mem_filterMap.mpr ⟨_, starts, ?_⟩)
      rw [reaches.computation_of_start course starts]
      rfl
  · intro name strategy member
    rw [built] at member
    rcases List.mem_append.mp member with old | new
    · obtain ⟨q, hashSet, own, started⟩ := kept.owned name strategy old
      exact ⟨q, hashSet, (congrArg Atomic.computation (atomic q)).trans own,
        started_commit course started⟩
    · obtain ⟨change, inSegment, same⟩ := List.mem_filterMap.mp new
      cases change with
      | consume node | redirect computation database name => simp [Change.building?] at same
      | startJoin q computation way hashSet =>
          obtain ⟨rfl, rfl⟩ := Prod.mk.inj (Option.some.inj same)
          refine ⟨q, hashSet, ?_, ?_⟩
          · rw [atomic]
            exact reaches.computation_of_start course inSegment
          · rw [PhysicalNode.IsStarted, node_commit]
            exact (course.started_by (reaches.has_last course) inSegment).2

end Planned

theorem StrategiesKept.penalize (kept : StrategiesKept g s stages) (key : String)
    (source : NodeId)
    : StrategiesKept g (s.penalize key source) stages := by
  have kind : ∀ q, ((s.penalize key source).node q).kind = (s.node q).kind :=
    Arena.kind_rotate s.topology.arena source
  have atomic : ∀ q, ((s.penalize key source).node q).atomic = (s.node q).atomic :=
    (Arena.frame_rotate s.topology.arena source).atomic
  refine ⟨kept.records, ?_, ?_⟩
  · intro q strategy hashSet started
    rw [atomic]
    exact kept.listed q strategy hashSet ((kind q).symm.trans started)
  · intro name strategy member
    obtain ⟨q, hashSet, own, started⟩ := kept.owned name strategy member
    exact ⟨q, hashSet, (congrArg Atomic.computation (atomic q)).trans own,
      (kind q).trans started⟩

/-- In every session that a run leads to, records are those of the tables that were built so far. -/
theorem steady_strategiesKept (g : Graph) (first : Session)
    : Steady fun out s =>
        ∃ followed, ReachesNamed g first s followed ∧ StrategiesKept g s out.stages :=
  steady_of_named (P := fun _ out s => StrategiesKept g s out.stages)
    (fun reaches kept done course _ _ =>
      kept.commit reaches course (View.buildsStarted_of_analyze done.planned))
    (fun kept key source => kept.penalize key source)
    (fun kept => ⟨kept.records, kept.listed, kept.owned⟩)

-----------------------------------------------------------------------------------------------
-- Runs
-----------------------------------------------------------------------------------------------

/-- The record of the computation that a join was started for: it is that of the table which was
built last for the computation, for this join or another one. It fits the join if no join of the
computation is carried out in another way.
-/
structure RecordsLast (s : Session) (stages : List Stage) (p : NodeId) (strategy : JoinStrategy)
    (c : Computation) (last : JoinStrategy) : Prop where
  found : s.topology.graph.computation (s.node p).atomic.computation = .ok c
  latest : lastBuilt (s.node p).atomic.computation (buildings stages) = some last
  records : c.RecordsJoin last
  owner
    : ∃ q hashSet,
        (s.node q).atomic.computation = (s.node p).atomic.computation
        ∧ (s.node q).IsStarted last hashSet
  fits : c.RecordsJoin strategy ↔ last = strategy
  alone
    : (∀ q other hashSet,
        (s.node q).atomic.computation = (s.node p).atomic.computation →
          (s.node q).IsStarted other hashSet → other = strategy) →
        last = strategy

/-- In every session that a run of a graph leads to whose computations are filed under their own
names, the computation of each started join records the table that was built last for it.
-/
theorem recordsLast_of_run {jobId : String} {config : PlannerConfig}
    (started : Session.start jobId g config = .ok first) (named : g.Named)
    (calls : List (Call × Statistics))
    (isStarted : ((first.run calls).2.node p).IsStarted strategy hashSet)
    : ∃ c last,
        RecordsLast (first.run calls).2 (first.run calls).1.stages p strategy c last := by
  obtain ⟨beginning, -⟩ := beginning_of_start started
  obtain ⟨followed, reaches, kept⟩ := (steady_strategiesKept _ first).run
    ⟨[], beginning.reachesNamed named, beginning.strategiesKept⟩ calls
  have inside : (first.run calls).2.topology.arena.Has p := by
    by_contra outside
    rw [PhysicalNode.IsStarted, node, Arena.node_of_not_has outside] at isStarted
    simp [default, instInhabitedPhysicalNode.default, instInhabitedNodeKind.default] at isStarted
  obtain ⟨given, submitted⟩ := reaches.wired.valid.known _ (reaches.wired.known p inside)
  obtain ⟨c, found, records⟩ := kept.records _ given submitted
  obtain ⟨last, isLast⟩ := exists_lastBuilt (kept.listed p strategy hashSet isStarted)
  obtain ⟨q, built, own, owner⟩ := kept.owned _ last (mem_of_lastBuilt isLast)
  have recorded := records.recordsJoin isLast
  refine ⟨c, last, found, isLast, recorded, ⟨q, built, own, owner⟩, ?_, ?_⟩
  · constructor
    · exact fun fits => Option.some.inj (recorded.1.symm.trans fits.1)
    · rintro rfl
      exact recorded
  · exact fun alone => alone q last built own owner

/-- In all runs the computation of a started join records how the join is carried out. -/
def RecordsAgree (first : Session) : Prop :=
  ∀ calls p strategy hashSet c,
    ((first.run calls).2.node p).IsStarted strategy hashSet →
      (first.run calls).2.topology.graph.computation
          ((first.run calls).2.node p).atomic.computation
        = .ok c →
        c.RecordsJoin strategy

/-- Two joins of one computation. -/
def sharedJoin : Graph :=
  .ofLists
    [.scan "scan_a" "db" "a", .scan "scan_b" "db" "b", .scan "scan_c" "db" "c",
      .ofKind "join" .join, (Computation.ofKind "write" .write).setOutput "db" "out"]
    [.scan "a" "scan_a", .scan "b" "scan_b", .scan "c" "scan_c", .join "j1" "a" "b" "join",
      .join "j2" "j1" "c" "join", .apply "out" "j2" "write"]

/-- Only one of the sets is cheap enough to be broadcast. -/
def oneCheapSet : Statistics :=
  ((Statistics.empty.setBytes "db" "a" 20000000000).setBytes "db" "b" 30000000000).setBytes
    "db" "c" 1000000

/-- The cheap set is broadcast for the second join first; then the first join is started split by
key, and its record takes the place of the other one.
-/
theorem run_sharedJoin
    : ∃ first p c,
        Session.start "job" sharedJoin .standard = .ok first
        ∧ ((first.run (List.replicate 2 (.planIncrement, oneCheapSet))).2.node p).IsStarted
            .broadcast "job:j2_broadcastData"
        ∧ (first.run (List.replicate 2 (.planIncrement, oneCheapSet))).2.topology.graph.computation
            ((first.run (List.replicate 2 (.planIncrement, oneCheapSet))).2.node
              p).atomic.computation
          = .ok c
        ∧ c.RecordsJoin .hashPartitioned := by
  have evaluated : (Session.start "job" sharedJoin .standard).toOption.any (fun first =>
      let s := (first.run (List.replicate 2 (.planIncrement, oneCheapSet))).2
      (s.topology.arena.lookup "j2").any fun p =>
        decide ((s.node p).kind = .join (.started .broadcast "job:j2_broadcastData"))
          && (s.topology.graph.computation (s.node p).atomic.computation).toOption.any fun c =>
            decide (c.RecordsJoin .hashPartitioned)) = true := by
    decide +kernel
  obtain ⟨first, started, evaluated⟩ := Except.toOption_any_iff.mp evaluated
  simp only [Option.any_eq_true, Except.toOption_eq_some_iff, Bool.and_eq_true,
    decide_eq_true_eq] at evaluated
  obtain ⟨p, -, isStarted, c, found, records⟩ := evaluated
  exact ⟨first, p, c, started, isStarted, found, records⟩

theorem sharedJoin_recordsLast
    : ∃ first p c last,
        Session.start "job" sharedJoin .standard = .ok first
        ∧ ((first.run (List.replicate 2 (.planIncrement, oneCheapSet))).2.node p).IsStarted
            .broadcast "job:j2_broadcastData"
        ∧ RecordsLast (first.run (List.replicate 2 (.planIncrement, oneCheapSet))).2
            (first.run (List.replicate 2 (.planIncrement, oneCheapSet))).1.stages p .broadcast c
            last := by
  obtain ⟨first, p, -, started, isStarted, -⟩ := run_sharedJoin
  obtain ⟨c, last, records⟩ := recordsLast_of_run started (Graph.named_ofLists _ _) _ isStarted
  exact ⟨first, p, c, last, started, isStarted, records⟩

/-- No strategy was submitted, but the record of a join that is broadcast says that it is split. -/
theorem sharedJoin_disagrees
    : ∃ first,
        Session.start "job" sharedJoin .standard = .ok first
        ∧ (∀ name c, sharedJoin.computation name = .ok c → c.joinStrategy = none)
        ∧ ¬ first.RecordsAgree := by
  obtain ⟨first, p, c, started, isStarted, found, records⟩ := run_sharedJoin
  refine ⟨first, started, ?_, fun claimed => ?_⟩
  · intro name c found
    have unrecorded : ∀ entry ∈ sharedJoin.computations.entries, entry.2.joinStrategy = none := by
      decide +kernel
    exact unrecorded _ ((Table.mem_entries_iff _).mpr (Graph.computation_eq_ok.mp found))
  · have agrees := claimed _ p _ _ c isStarted found
    exact absurd (agrees.1.symm.trans records.1) (by decide)

end DataflowPlan.Session
