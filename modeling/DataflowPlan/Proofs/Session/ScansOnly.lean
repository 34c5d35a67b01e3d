import DataflowPlan.Proofs.Session.Drops
import DataflowPlan.Proofs.Session.SetKeys

/-! Jobs in which no output is kept for readers, so that only scans are sources. Their sessions
read the same sets from beginning to end, and leave the set alone that each computation names.
-/

namespace DataflowPlan

namespace Graph

/-- No output is kept for readers: steps and joins have at most one of them, aggregates and
partitions none.
-/
structure ScansOnly (g : Graph) : Prop where
  single
    : ∀ a ∈ g.atomics,
        a.kind = .other ∨ a.kind = .joinSets → (g.consumersOf a.output).length ≤ 1
  final
    : ∀ a ∈ g.atomics,
        a.kind = .aggregate ∨ a.kind = .partition → g.consumersOf a.output = []

/-- The key of the set that the atomic's computation names, if it names one. -/
def namedKeys (g : Graph) (a : Atomic) : List String :=
  (((g.computations.get? a.computation).bind Computation.set?).map SetId.key).toList

/-- The keys of the sets that are scanned. -/
def scannedKeys (g : Graph) : List String :=
  g.scans.flatMap g.namedKeys

/-- The keys of the sets that a job can make or write: those that other computations than scans
name, and those that planning can make.
-/
def writtenKeys (g : Graph) (jobId : String) : List String :=
  (g.atomics.filter (·.kind != .scan)).flatMap g.namedKeys ++ g.generatedKeys jobId

variable {g : Graph} {jobId : String} {a : Atomic} {c : Computation} {set : SetId}

theorem mem_namedKeys (found : g.computation a.computation = .ok c) (names : c.set? = some set)
    : set.key ∈ g.namedKeys a := by
  simp [namedKeys, computation_eq_ok.mp found, names]

theorem mem_scannedKeys (member : a ∈ g.atomics) (scan : a.kind = .scan)
    (found : g.computation a.computation = .ok c) (names : c.set? = some set)
    : set.key ∈ g.scannedKeys :=
  List.mem_flatMap.mpr
    ⟨a, List.mem_filter.mpr ⟨member, by simp [scan]⟩, mem_namedKeys found names⟩

theorem mem_writtenKeys_of_named (member : a ∈ g.atomics) (noScan : a.kind ≠ .scan)
    (found : g.computation a.computation = .ok c) (names : c.set? = some set)
    : set.key ∈ g.writtenKeys jobId := by
  refine List.mem_append_left _ (List.mem_flatMap.mpr ⟨a, ?_, mem_namedKeys found names⟩)
  exact List.mem_filter.mpr ⟨member, by simp [noScan]⟩

theorem mem_writtenKeys_of_generated {key : String} (generated : key ∈ g.generatedKeys jobId)
    : key ∈ g.writtenKeys jobId :=
  List.mem_append_right _ generated

theorem ScansOnly.few (only : g.ScansOnly) (member : a ∈ g.atomics) (noScan : a.kind ≠ .scan)
    : (g.consumersOf a.output).length ≤ 1 := by
  cases kind : a.kind with
  | scan => exact absurd kind noScan
  | other => exact only.single a member (.inl kind)
  | joinSets => exact only.single a member (.inr kind)
  | aggregate => simp [only.final a member (.inl kind)]
  | partition => simp [only.final a member (.inr kind)]

end Graph

-----------------------------------------------------------------------------------------------
-- Pipelines
-----------------------------------------------------------------------------------------------

/-- A node that a pipeline of such a job comes to: few consumers wait there, none at a breaker, and
its computation goes by the set that it was given.
-/
structure View.Plain (g : Graph) (v : View) (q : NodeId) : Prop where
  inside : v.topology.arena.Has q
  known : (v.node q).atomic ∈ g.atomics
  noScan : (v.node q).atomic.kind ≠ .scan
  few : (v.node q).active.length ≤ 1
  final
    : (v.node q).kind = .aggregation ∨ (v.node q).kind = .partition → (v.node q).active = []
  given
    : ∀ c,
        v.computation q = .ok c →
          ∃ d, g.computation (v.node q).atomic.computation = .ok d ∧ c.Like d

namespace View.Plain

variable {g : Graph} {v : View} {q : NodeId} {set : SetId} {segment : Segment}
  (plain : v.Plain g q)

include plain

/-- Nothing is gathered there for readers. -/
theorem not_gathered : ¬ v.Gathered q := by
  rintro (shared | ⟨partition, read⟩)
  · exact absurd shared (by have := plain.few; omega)
  · exact read (plain.final (.inr partition))

variable (wired : Arena.Wired g v.topology.arena)

include wired

theorem made (made : v.MadeAt q set) : set.key ∈ g.writtenKeys v.jobId := by
  obtain ⟨-, suffix, makes, key⟩ := made
  rw [key]
  refine Graph.mem_writtenKeys_of_generated (Graph.mem_generatedKeys plain.known
    (Graph.mem_jobKeys (makes.mem_suffixes wired plain.inside ?_ ?_)))
  · exact fun c _ _ read => absurd read plain.not_gathered
  · intro c found
    obtain ⟨d, there, like⟩ := plain.given c found
    rw [Graph.combines, Graph.computation_eq_ok.mp there, Option.any_some, like.combines]

/-- What a pipeline writes there is a set that the computation was given, or one that planning
makes.
-/
theorem deposit (deposit : v.Deposit q segment set) : set.key ∈ g.writtenKeys v.jobId := by
  cases deposit with
  | made made declared => exact plain.made wired made
  | named found names kept key plainSet =>
      obtain ⟨d, there, like⟩ := plain.given _ found
      rw [key]
      exact Graph.mem_writtenKeys_of_named plain.known plain.noScan there
        (like.sets.symm.trans names)
  | handed kind found unkept active table new =>
      rw [plain.final (.inl kind)] at active
      simp at active

end View.Plain

namespace Session

-----------------------------------------------------------------------------------------------
-- Sessions
-----------------------------------------------------------------------------------------------

/-- The sources read what they read at first, computations go by the sets that they were given, and
all that is declared or written so far has a key that the job can write.
-/
structure ScansOnly (g : Graph) (first : Session) (out : Increment) (s : Session) : Prop where
  sources : ∀ p, (s.node p).sourceSet = (first.node p).sourceSet
  given
    : ∀ name c,
        s.topology.graph.computation name = .ok c →
          ∃ d, g.computation name = .ok d ∧ c.Like d
  declared : ∀ set ∈ out.intermediateSets, set.key ∈ g.writtenKeys first.jobId
  written : ∀ stage ∈ out.stages, ∀ key, stage.Writes key → key ∈ g.writtenKeys first.jobId

variable {g : Graph} {first s : Session} {followed : List Arena.Edge} {stats : Statistics}
  {skip : List String} {key : String} {source last p : NodeId} {init : List NodeId}
  {reached next : StageId} {segment inner : Segment} {set : SetId} {out : Increment}

theorem Beginning.scansOnly (beginning : s.Beginning g)
    : ScansOnly g s .empty s := by
  refine ⟨fun _ => rfl, ?_, by simp [Increment.empty], by simp [Increment.empty]⟩
  intro name c found
  rw [beginning.graph] at found
  exact ⟨c, found, rfl, rfl, rfl⟩

/-- At the beginning every source reads a set that is scanned. -/
theorem Beginning.mem_scannedKeys (beginning : s.Beginning g)
    (isSource : (s.node p).sourceSet = some set)
    : set.key ∈ g.scannedKeys := by
  obtain ⟨c, scan, found, names⟩ := beginning.exists_scan isSource
  exact Graph.mem_scannedKeys (beginning.mirrors.known p (has_of_source isSource)) scan found names

section Planned

variable (reaches : Reaches g first s followed) (holds : ScansOnly g first out s)
  (course : (s.view stats).Course source init last segment) (only : g.ScansOnly)

include reaches holds course only

theorem ScansOnly.plain (member : p ∈ init ++ [last])
    : (s.view stats).Plain g p := by
  have wired : Arena.Wired g (s.view stats).topology.arena := reaches.wired
  have ledger : (s.view stats).topology.arena.Ledger followed := reaches.ledger
  obtain ⟨q, edge, -⟩ := exists_fresh_edge wired ledger course member
  have inside := wired.has_consumer edge
  have known : ((s.view stats).node p).atomic ∈ g.atomics := wired.known p inside
  have noScan : (s.node p).atomic.kind ≠ .scan := fun scan => wired.scan_reads_nothing scan q edge
  have few : ((s.view stats).node p).active.length
      ≤ (g.consumersOf ((s.view stats).node p).atomic.output).length :=
    ledger.length_active_le wired inside
  refine ⟨inside, known, noScan, few.trans (only.few known noScan), ?_, fun c found => ?_⟩
  · intro breaker
    rw [only.final _ known (breaker.imp (wired.aggregation_iff inside).mp
      (wired.partition_iff inside).mp)] at few
    simpa using few
  · exact holds.given _ c found

theorem ScansOnly.newSource_eq_none : segment.newSource = none := by
  obtain ⟨closing, closes, same, -⟩ := course.closes
  have plain := holds.plain reaches course only (p := last) (by simp)
  exact same.trans (closes.newSource_eq_none plain.few plain.final)

/-- A planned pipeline makes no source, and at most decides how a join is carried out. -/
theorem ScansOnly.commit
    (pipeline
      : (s.view stats).Pipeline next ((s.view stats).sourceDraft source set) source
          (init ++ [last]) inner)
    (whole : segment = inner.through source)
    : ScansOnly g first (out.append ⟨segment.stages, segment.intermediateSets⟩)
        (s.commit key source reached segment) := by
  have wired : Arena.Wired g (s.view stats).topology.arena := reaches.wired
  have none := holds.newSource_eq_none reaches course only
  have job : (s.view stats).jobId = first.jobId := reaches.descends.jobId
  have deposits := pipeline.deposits
  refine ⟨?_, ?_, ?_, ?_⟩
  · intro p
    rw [sourceSet_commit course (reaches.has_last course), none]
    exact holds.sources p
  · intro name c found
    rw [topology_commit] at found
    rcases course.graph_of_no_source none with same | ⟨-, d, strategy, -, changed⟩
    · exact holds.given name c (same ▸ found)
    · rw [show (segment.apply s.topology).graph = _ from changed] at found
      obtain ⟨before, there, rfl⟩ := Graph.of_computation_modify found
      obtain ⟨given, known, like⟩ := holds.given _ before there
      split
      · exact ⟨given, known, like.sets, like.keeps, like.combines⟩
      · exact ⟨given, known, like⟩
  · intro made member
    rcases List.mem_append.mp member with before | now
    · exact holds.declared made before
    · subst whole
      obtain ⟨q, onPath, madeAt⟩ := deposits.declared made now
      exact job ▸ (holds.plain reaches course only onPath).made wired madeAt
  · rintro stage member _ ⟨sink, writes, rfl⟩
    rcases List.mem_append.mp member with before | now
    · exact holds.written stage before _ ⟨sink, writes, rfl⟩
    · subst whole
      obtain ⟨q, onPath, deposit⟩ := deposits.sinks stage now sink writes
      exact job ▸ (holds.plain reaches course only onPath).deposit wired deposit

end Planned

/-- In every session that such a job leads to, its sources are the scans that it began with. -/
theorem steady_scansOnly (g : Graph) (first : Session) (only : g.ScansOnly)
    : Steady fun out s => ∃ followed, Reaches g first s followed ∧ ScansOnly g first out s := by
  refine steady_of_kept (P := fun _ out s => ScansOnly g first out s) ?_ ?_ ?_
  · intro followed out s stats skip key source reached segment init last set inner reaches holds
      done course pipeline whole
    exact holds.commit reaches course only pipeline whole
  · intro followed out s holds key source
    refine ⟨fun p => ?_, holds.given, holds.declared, holds.written⟩
    rw [sourceSet_penalize]
    exact holds.sources p
  · exact fun holds => ⟨holds.sources, holds.given, holds.declared, holds.written⟩

end Session

end DataflowPlan
