import DataflowPlan.Proofs.Session.LiveSources

/-! Sets of one's own. If the keys of all sets that pipelines can start from are different, no
planned pipeline clashes with a source, so that no live source is lost.
-/

namespace DataflowPlan

/-- What shares an item is the same, if the lists of all items together have none twice. -/
theorem eq_of_nodup_flatMap {α β : Type} {items : α → List β} {all : List α}
    (distinct : (all.flatMap items).Nodup) {a b : α} (left : a ∈ all) (right : b ∈ all) {item : β}
    (here : item ∈ items a) (there : item ∈ items b)
    : a = b := by
  by_contra differ
  obtain ⟨-, apart⟩ := List.nodup_flatMap.mp distinct
  have symmetric : Std.Symm (Function.onFun List.Disjoint items) :=
    ⟨fun _ _ disjoint _ here there => disjoint there here⟩
  exact apart.forall left right differ here there

/-- The set that the computation keeps its output in. -/
def Computation.keptSet? (c : Computation) : Option SetId :=
  if c.materializeOutput then c.set? else none

/-- What is put behind the name of a tuple set to name the job's sets that its readers start from.
-/
def AtomicKind.suffixes : AtomicKind → List String
  | .scan => []
  | .aggregate => ["", "_aggregationResult"]
  | .joinSets | .partition | .other => [""]

namespace Graph

/-- The keys of the sets that pipelines can start from to read what the atomic makes: the set that
is scanned or that the computation keeps, and those of the job's.
-/
def sourceKeys (g : Graph) (jobId : String) (a : Atomic) : List String :=
  let named := if a.kind = .scan then Computation.set? else Computation.keptSet?
  (((g.computations.get? a.computation).bind named).map SetId.key).toList
    ++ a.kind.suffixes.map fun suffix => setKey jobId (a.output ++ suffix)

variable {g : Graph} {jobId : String} {a : Atomic}

theorem mem_sourceKeys_of_scan (scan : a.kind = .scan) {c : Computation} {set : SetId}
    (found : g.computation a.computation = .ok c) (scanned : c.set? = some set)
    : set.key ∈ g.sourceKeys jobId a := by
  simp [sourceKeys, scan, computation_eq_ok.mp found, scanned]

theorem mem_sourceKeys_of_kept (noScan : a.kind ≠ .scan) {c : Computation} {set : SetId}
    (found : g.computation a.computation = .ok c) (kept : c.keptSet? = some set)
    : set.key ∈ g.sourceKeys jobId a := by
  simp [sourceKeys, noScan, computation_eq_ok.mp found, kept]

theorem mem_sourceKeys_of_suffix (g : Graph) (jobId : String) {suffix : String}
    (member : suffix ∈ a.kind.suffixes)
    : setKey jobId (a.output ++ suffix) ∈ g.sourceKeys jobId a :=
  List.mem_append_right _ (List.mem_map.mpr ⟨suffix, member, rfl⟩)

/-- What any atomic but a scan makes can go to the job's set of its name. -/
theorem mem_sourceKeys_of_output (noScan : a.kind ≠ .scan)
    : setKey jobId a.output ∈ g.sourceKeys jobId a := by
  have member : "" ∈ a.kind.suffixes := by
    cases kind : a.kind with
    | scan => exact absurd kind noScan
    | joinSets | aggregate | partition | other => simp [AtomicKind.suffixes]
  simpa using mem_sourceKeys_of_suffix g jobId member

end Graph

namespace Session

/-- Every set that pipelines can start from now has a key of its atomic's. -/
structure OwnSets (g : Graph) (s : Session) : Prop where
  sources
    : ∀ p set,
        (s.node p).sourceSet = some set → set.key ∈ g.sourceKeys s.jobId (s.node p).atomic
  kept
    : ∀ a ∈ g.atomics,
        a.kind ≠ .scan →
          ∀ c sink,
            s.topology.graph.computation a.computation = .ok c →
              c.materializeOutput = true →
                c.sinkSet = .ok sink → sink.key ∈ g.sourceKeys s.jobId a

variable {g : Graph} {first s : Session} {followed : List Arena.Edge} {stats : Statistics}
  {skip : List String} {key : String} {source last : NodeId} {init : List NodeId}
  {reached : StageId} {segment : Segment}

theorem Beginning.ownSets (beginning : s.Beginning g)
    : s.OwnSets g := by
  refine ⟨?_, ?_⟩
  · intro p set isSource
    obtain ⟨c, scan, found, names⟩ := beginning.exists_scan isSource
    exact Graph.mem_sourceKeys_of_scan scan found names
  · intro a member noScan c sink found keeps names
    rw [beginning.graph] at found
    have kept : c.keptSet? = some sink := by
      rw [Computation.keptSet?, if_pos keeps, Computation.set?_of_sinkSet names]
    exact Graph.mem_sourceKeys_of_kept noScan found kept

/-- A set that a pipeline makes readable has a key of its atomic's. -/
theorem OwnSets.newSource (own : s.OwnSets g) (reaches : ReachesNamed g first s followed)
    (course : (s.view stats).Course source init last segment) {set : SetId}
    (new : segment.newSource = some (last, set))
    : set.key ∈ g.sourceKeys s.jobId (s.node last).atomic := by
  have inside := reaches.has_last course
  have noScan : (s.node last).atomic.kind ≠ .scan := by
    intro scan
    obtain ⟨q, link⟩ := Arena.exists_link_last source init last
    exact reaches.wired.scan_reads_nothing scan q
      (Arena.course_edge (v := s.view stats) reaches.ledger course link)
  cases course.sourced new with
  | kept found keeps names key same =>
      rw [key]
      exact own.kept _ (reaches.wired.known last inside) noScan _ _ found keeps names
  | redirected found unkept key changed =>
      rw [key]
      exact Graph.mem_sourceKeys_of_output noScan
  | handed kind key same =>
      have aggregate : (s.node last).atomic.kind = .aggregate :=
        (reaches.wired.aggregation_iff inside).mp kind
      rw [key]
      exact Graph.mem_sourceKeys_of_suffix g s.jobId (by simp [aggregate, AtomicKind.suffixes])

/-- Where a computation keeps its output after a pipeline, it has a key of its atomic's.
Witness: only the computation of the last node changes, and its output is redirected to the job's
set of that name.
-/
theorem OwnSets.kept_after (own : s.OwnSets g) (reaches : ReachesNamed g first s followed)
    (course : (s.view stats).Course source init last segment)
    (distinct : (g.atomics.map Atomic.computation).Nodup) {a : Atomic} (member : a ∈ g.atomics)
    (noScan : a.kind ≠ .scan) {c : Computation} {sink : SetId}
    (found : (segment.apply s.topology).graph.computation a.computation = .ok c)
    (keeps : c.materializeOutput = true) (names : c.sinkSet = .ok sink)
    : sink.key ∈ g.sourceKeys s.jobId a := by
  have inside := reaches.wired.known last (reaches.has_last course)
  have named := reaches.named
  by_cases same : a.computation = (s.node last).atomic.computation
  · obtain rfl : a = (s.node last).atomic :=
      List.inj_on_of_nodup_map distinct member inside same
    rcases course.graph_cases with unchanged | ⟨d, before, changed⟩
    · rw [show (segment.apply s.topology).graph = _ from unchanged] at found
      exact own.kept _ member noScan c sink found keeps names
    · have there : s.topology.graph.computation (s.node last).atomic.computation = .ok d := before
      have name : d.name = (s.node last).atomic.computation :=
        named _ _ (Graph.computation_eq_ok.mp there)
      have modified : ∀ change : Computation → Computation,
          (segment.apply s.topology).graph = s.topology.graph.modifyComputation d.name change →
            c = change d := by
        intro change graph
        rw [graph, Graph.computation_modify there, if_pos name.symm] at found
        exact (Except.ok.inj found).symm
      rcases changed with ⟨-, redirected⟩ | ⟨strategy, built⟩
      · obtain rfl := modified _ redirected
        obtain rfl : sink = .user s.jobId (s.node last).output :=
          (Option.some.inj (Computation.set?_of_sinkSet names)).symm
        exact Graph.mem_sourceKeys_of_output noScan
      · obtain rfl := modified _ built
        exact own.kept _ member noScan d sink before keeps names
  · have before : s.topology.graph.computations.get? a.computation = some c :=
      (course.computation_other named same).symm.trans (Graph.computation_eq_ok.mp found)
    exact own.kept a member noScan c sink (Graph.computation_eq_ok.mpr before) keeps names

theorem OwnSets.commit (own : s.OwnSets g) (reaches : ReachesNamed g first s followed)
    (course : (s.view stats).Course source init last segment)
    (distinct : (g.atomics.map Atomic.computation).Nodup)
    : (s.commit key source reached segment).OwnSets g := by
  obtain ⟨jobId, -⟩ := settings_commit s key source reached segment
  refine ⟨?_, ?_⟩
  · intro p set isSource
    rw [jobId, atomic_commit course]
    rcases sourceSet_commit_cases course (reaches.has_last course) isSource with was | ⟨rfl, new⟩
    · exact own.sources p set was
    · exact own.newSource reaches course new
  · intro a member noScan c sink found keeps names
    rw [topology_commit] at found
    rw [jobId]
    exact own.kept_after reaches course distinct member noScan found keeps names

theorem OwnSets.penalize (own : s.OwnSets g) (key : String) (source : NodeId)
    : (s.penalize key source).OwnSets g := by
  refine ⟨?_, own.kept⟩
  intro p set isSource
  rw [sourceSet_penalize] at isSource
  have atomic : ((s.penalize key source).node p).atomic = (s.node p).atomic :=
    (Arena.frame_rotate s.topology.arena source).atomic p
  rw [atomic]
  exact own.sources p set isSource

theorem OwnSets.prune (own : s.OwnSets g)
    : s.prune.OwnSets g :=
  ⟨own.sources, own.kept⟩

/-- In every session that a run leads to, sets that pipelines can start from have keys of their
atomics.
-/
theorem steady_ownSets (g : Graph) (first : Session)
    (distinct : (g.atomics.map Atomic.computation).Nodup)
    : Steady fun _ s => ∃ followed, ReachesNamed g first s followed ∧ s.OwnSets g :=
  steady_of_named (P := fun _ _ s => s.OwnSets g)
    (fun reaches own _ course _ _ => own.commit reaches course distinct)
    (fun own key source => own.penalize key source)
    (fun own => own.prune)

/-- A pipeline clashes with no source if no two keys are the same. -/
theorem OwnSets.not_clashes (own : s.OwnSets g) (reaches : ReachesNamed g first s followed)
    (course : (s.view stats).Course source init last segment)
    (keys : (g.atomics.flatMap (g.sourceKeys s.jobId)).Nodup)
    : ¬ s.Clashes source segment := by
  rintro ⟨id, set, other, kept, new, differ, isSource, sameKey, -⟩
  obtain rfl := eq_last_of_newSource course new
  have inside := reaches.has_last course
  have there := has_of_source isSource
  have atomic : (s.node other).atomic = (s.node id).atomic :=
    eq_of_nodup_flatMap keys (reaches.wired.known other there) (reaches.wired.known id inside)
      (own.sources other kept isSource) (sameKey ▸ own.newSource reaches course new)
  exact differ (reaches.wired.sound.id_eq there inside (congrArg Atomic.output atomic))

/-- No run loses a live source if the keys of all sets that pipelines can start from are
different.
-/
theorem Beginning.registered_of_keys (beginning : first.Beginning g) (named : g.Named)
    (distinct : (g.atomics.map Atomic.computation).Nodup)
    (keys : (g.atomics.flatMap (g.sourceKeys first.jobId)).Nodup)
    (calls : List (Call × Statistics))
    : (first.run calls).2.Registered := by
  refine registered_of_free beginning named ?_ calls
  intro calls stats c m key source reached segment plans
  have steady := steady_ownSets g first distinct
  have ran := steady.run ⟨[], beginning.reachesNamed named, beginning.ownSets⟩ calls
  obtain ⟨followed, reaches, own⟩ := @Steady.waits _ steady _ _ .empty ran plans.waits
  obtain ⟨skip, done⟩ := plans.committed
  obtain ⟨init, last, course⟩ := done.course
  exact own.not_clashes reaches course (reaches.descends.jobId ▸ keys)

end Session

end DataflowPlan
