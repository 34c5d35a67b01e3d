import DataflowPlan.Proofs.Analysis.Deposits
import DataflowPlan.Proofs.Session.CompletePlan

/-! The keys of a job's sets: for each atomic those of the user's sets that it reads or keeps its
output in, and those of the sets that planning can make for it. In every session that a run leads
to, what a pipeline reads, declares or writes has a key of some atomic that it comes to.
-/

namespace DataflowPlan

/-- The computation goes by the same set as the other one, keeps it alike, and combines alike. -/
structure Computation.Like (c d : Computation) : Prop where
  sets : c.set? = d.set?
  keeps : c.materializeOutput = d.materializeOutput
  combines : c.usesCombiner = d.usesCombiner

theorem Computation.Like.trans {c d e : Computation} (left : c.Like d) (right : d.Like e)
    : c.Like e :=
  ⟨left.sets.trans right.sets, left.keeps.trans right.keeps, left.combines.trans right.combines⟩

namespace Graph

/-- The computation of the atomic keeps its output. -/
def keeps (g : Graph) (a : Atomic) : Bool :=
  (g.computations.get? a.computation).any Computation.materializeOutput

def combines (g : Graph) (a : Atomic) : Bool :=
  (g.computations.get? a.computation).any Computation.usesCombiner

/-- The user's set of the atomic: the one that it scans, that its output is kept in, or that takes
an output which nothing reads.
-/
def userSet? (g : Graph) (a : Atomic) : Option SetId :=
  let named :=
    if a.kind = .scan ∨ a.kind ≠ .joinSets ∧ g.isUnread a = true then Computation.set?
    else Computation.keptSet?
  (g.computations.get? a.computation).bind named

/-- The output of the atomic is put into a set of the job's for those who read it. -/
def isGathered (g : Graph) (a : Atomic) : Bool :=
  !g.keeps a && a.kind != .scan && (g.isShared a || (a.kind == .partition && !g.isUnread a))

/-- What is put behind the atomic's output to name the job's sets that planning can make for it. -/
def suffixes (g : Graph) (a : Atomic) : List String :=
  (if g.isGathered a then [""] else [])
    ++ match a.kind with
      | .scan | .partition | .other => []
      | .aggregate =>
        ["_aggregationData"]
          ++ (if g.combines a then ["_combinerData"] else [])
          ++ (if g.keeps a || g.isUnread a || g.isShared a then [] else ["_aggregationResult"])
      | .joinSets => ["_broadcastData", "_repartitionData", "_probeRepartitionData"]

/-- The keys of the sets that planning can make for the atomic. -/
def jobKeys (g : Graph) (jobId : String) (a : Atomic) : List String :=
  (g.suffixes a).map fun suffix => setKey jobId (a.output ++ suffix)

/-- The keys of all sets of the atomic, the user's and the job's. -/
def ownKeys (g : Graph) (jobId : String) (a : Atomic) : List String :=
  ((g.userSet? a).map SetId.key).toList ++ g.jobKeys jobId a

/-- The keys of the sets that planning can make for the job. -/
def generatedKeys (g : Graph) (jobId : String) : List String :=
  g.atomics.flatMap (g.jobKeys jobId)

variable {g : Graph} {jobId : String} {a : Atomic}

theorem mem_ownKeys_of_userSet {set : SetId} (named : g.userSet? a = some set) (jobId : String)
    : set.key ∈ g.ownKeys jobId a := by
  simp [ownKeys, named]

theorem mem_ownKeys_of_jobKeys {key : String} (member : key ∈ g.jobKeys jobId a)
    : key ∈ g.ownKeys jobId a :=
  List.mem_append_right _ member

theorem mem_jobKeys {suffix : String} (member : suffix ∈ g.suffixes a)
    : setKey jobId (a.output ++ suffix) ∈ g.jobKeys jobId a :=
  List.mem_map_of_mem member

theorem mem_generatedKeys {key : String} (member : a ∈ g.atomics)
    (made : key ∈ g.jobKeys jobId a)
    : key ∈ g.generatedKeys jobId :=
  List.mem_flatMap.mpr ⟨a, member, made⟩

/-- The key of a user's set is none that planning can make. -/
theorem userSet_not_generated (distinct : (g.atomics.flatMap (g.ownKeys jobId)).Nodup)
    (member : a ∈ g.atomics) {set : SetId} (named : g.userSet? a = some set)
    : set.key ∉ g.generatedKeys jobId := by
  intro generated
  obtain ⟨b, known, made⟩ := List.mem_flatMap.mp generated
  obtain rfl : a = b := eq_of_nodup_flatMap distinct member known
    (mem_ownKeys_of_userSet named jobId) (mem_ownKeys_of_jobKeys made)
  have own := (List.nodup_flatMap.mp distinct).1 a member
  rw [ownKeys, named] at own
  exact (List.nodup_append.mp own).2.2 set.key (by simp) set.key made rfl

end Graph

-----------------------------------------------------------------------------------------------
-- Visited nodes
-----------------------------------------------------------------------------------------------

/-- What names a set at a node is put behind the output of the node's atomic, if that gathers and
combines as the node does.
-/
theorem View.Makes.mem_suffixes {g : Graph} {v : View} {q : NodeId} {suffix : String}
    (makes : v.Makes q suffix) (wired : Arena.Wired g v.topology.arena)
    (inside : v.topology.arena.Has q)
    (gathers
      : ∀ c,
          v.computation q = .ok c →
            c.materializeOutput = false →
              v.Gathered q → g.isGathered (v.node q).atomic = true)
    (combines
      : ∀ c, v.computation q = .ok c → g.combines (v.node q).atomic = c.usesCombiner)
    : suffix ∈ g.suffixes (v.node q).atomic := by
  cases makes with
  | gathered found unkept read => simp [Graph.suffixes, gathers _ found unkept read]
  | shuffled kind =>
      have aggregate : (v.node q).atomic.kind = .aggregate := (wired.aggregation_iff inside).mp kind
      simp [Graph.suffixes, aggregate]
  | combined kind found uses =>
      have aggregate : (v.node q).atomic.kind = .aggregate := (wired.aggregation_iff inside).mp kind
      simp [Graph.suffixes, aggregate, combines _ found, uses]
  | @built strategy kind =>
      have join : (v.node q).atomic.kind = .joinSets := (wired.join_iff inside).mp ⟨_, kind⟩
      cases strategy <;> simp [Graph.suffixes, join, buildSuffix]
  | split started =>
      have join : (v.node q).atomic.kind = .joinSets := (wired.join_iff inside).mp ⟨_, started⟩
      simp [Graph.suffixes, join]

/-- A node that a pipeline comes to: as many consumers wait as its atomic has, and of its
computation no more was changed than how it joins.
-/
structure View.Visited (g : Graph) (v : View) (q : NodeId) : Prop where
  inside : v.topology.arena.Has q
  known : (v.node q).atomic ∈ g.atomics
  noScan : (v.node q).atomic.kind ≠ .scan
  length : (v.node q).active.length = (g.consumersOf (v.node q).atomic.output).length
  given
    : ∀ c,
        v.computation q = .ok c →
          ∃ d, g.computation (v.node q).atomic.computation = .ok d ∧ c.Like d

namespace View.Visited

variable {g : Graph} {v : View} {q : NodeId} {c : Computation} {set : SetId} {segment : Segment}
  (wired : Arena.Wired g v.topology.arena) (visited : v.Visited g q)

include visited

theorem keeps (found : v.computation q = .ok c)
    : g.keeps (v.node q).atomic = c.materializeOutput := by
  obtain ⟨d, there, like⟩ := visited.given c found
  rw [Graph.keeps, Graph.computation_eq_ok.mp there, Option.any_some, like.keeps]

theorem combines (found : v.computation q = .ok c)
    : g.combines (v.node q).atomic = c.usesCombiner := by
  obtain ⟨d, there, like⟩ := visited.given c found
  rw [Graph.combines, Graph.computation_eq_ok.mp there, Option.any_some, like.combines]

theorem isShared : g.isShared (v.node q).atomic = decide (2 ≤ (v.node q).active.length) := by
  rw [Graph.isShared, visited.length]

theorem isUnread : g.isUnread (v.node q).atomic = (v.node q).active.isEmpty := by
  rw [Graph.isUnread, Bool.eq_iff_iff, List.isEmpty_iff_length_eq_zero,
    List.isEmpty_iff_length_eq_zero, visited.length]

/-- The set that an output is kept in, or left in for nobody to read, is the user's. -/
theorem userSet (found : v.computation q = .ok c) (names : c.set? = some set)
    (kept
      : c.materializeOutput = true
        ∨ (v.node q).active = [] ∧ (v.node q).atomic.kind ≠ .joinSets)
    : g.userSet? (v.node q).atomic = some set := by
  obtain ⟨d, there, like⟩ := visited.given c found
  have own : d.set? = some set := like.sets.symm.trans names
  rw [Graph.userSet?, Graph.computation_eq_ok.mp there, Option.bind_some]
  split
  · exact own
  · next few =>
      rw [not_or, not_and] at few
      have keeps : c.materializeOutput = true := by
        refine kept.resolve_right fun ⟨unread, step⟩ => few.2 step ?_
        rw [visited.isUnread, unread]
        rfl
      rw [Computation.keptSet?, if_pos (like.keeps ▸ keeps), own]

include wired

theorem isGathered (found : v.computation q = .ok c) (unkept : c.materializeOutput = false)
    (read : v.Gathered q)
    : g.isGathered (v.node q).atomic = true := by
  rw [Graph.isGathered, visited.keeps found, unkept, visited.isShared, visited.isUnread]
  rcases read with shared | ⟨kind, waiting⟩
  · simp [shared, visited.noScan]
  · have partition : (v.node q).atomic.kind = .partition :=
      (wired.partition_iff visited.inside).mp kind
    simp [partition, waiting]

/-- The sets that a pipeline declares at a node have keys of the node's atomic. -/
theorem made (made : v.MadeAt q set)
    : set.key ∈ g.jobKeys v.jobId (v.node q).atomic := by
  obtain ⟨-, suffix, makes, key⟩ := made
  rw [key]
  refine Graph.mem_jobKeys (makes.mem_suffixes wired visited.inside ?_ ?_)
  · exact fun c found unkept read => visited.isGathered wired found unkept read
  · exact fun c found => visited.combines found

theorem handed (kind : (v.node q).kind = .aggregation) (found : v.computation q = .ok c)
    (unkept : c.materializeOutput = false) {consumer : NodeId}
    (active : (v.node q).active = [consumer])
    : setKey v.jobId (v.outputOf q ++ "_aggregationResult")
        ∈ g.jobKeys v.jobId (v.node q).atomic := by
  have aggregate : (v.node q).atomic.kind = .aggregate :=
    (wired.aggregation_iff visited.inside).mp kind
  refine Graph.mem_jobKeys ?_
  simp [Graph.suffixes, aggregate, visited.keeps found, unkept, visited.isUnread, visited.isShared,
    active]

/-- What a pipeline writes at a node has a key of the node's atomic: one of the user's set, or one
that the job makes, by declaring it or as a hash table.
-/
theorem deposit (deposit : v.Deposit q segment set)
    : (∃ own, g.userSet? (v.node q).atomic = some own ∧ set.key = own.key)
          ∧ set.isAggregationResult = false
      ∨ set.key ∈ g.jobKeys v.jobId (v.node q).atomic
          ∧ (set.isAggregationResult = false
                ∧ (∃ other ∈ segment.intermediateSets, other.key = set.key)
              ∨ set.isAggregationResult = true
                ∧ segment.newSource = some (q, set)
                ∧ (v.node q).active.length = 1) := by
  cases deposit with
  | made made declared => exact .inr ⟨visited.made wired made, .inl ⟨made.1, declared⟩⟩
  | named found names kept key plain =>
      refine .inl ⟨⟨_, visited.userSet found names ?_, key⟩, plain⟩
      refine kept.imp_right fun ⟨unread, step⟩ => ⟨unread, fun join => ?_⟩
      obtain ⟨state, kind⟩ := (wired.join_iff visited.inside).mpr join
      exact step state kind
  | handed kind found unkept active table new =>
      refine .inr ⟨?_, .inr ⟨?_, new, by simp [active]⟩⟩
      · rw [table]
        exact visited.handed wired kind found unkept active
      · rw [table]
        rfl

end View.Visited

namespace Session

/-- Every set that pipelines can start from has a key of its atomic, hash tables of aggregates have
at most one consumer left, and the computation of a node that is not complete goes by the set that
it was given.
-/
structure OwnKeys (g : Graph) (s : Session) (followed : List Arena.Edge) : Prop where
  sources
    : ∀ p set,
        (s.node p).sourceSet = some set → set.key ∈ g.ownKeys s.jobId (s.node p).atomic
  results
    : ∀ p set,
        (s.node p).sourceSet = some set →
          set.isAggregationResult = true → (s.node p).active.length ≤ 1
  given
    : ∀ p,
        s.topology.arena.Has p →
          ¬ s.topology.arena.Reached followed p →
            ∀ c,
              s.topology.graph.computation (s.node p).atomic.computation = .ok c →
                ∃ d, g.computation (s.node p).atomic.computation = .ok d ∧ c.Like d

variable {g : Graph} {first s : Session} {followed : List Arena.Edge} {stats : Statistics}
  {skip : List String} {key : String} {source last p : NodeId} {init : List NodeId}
  {reached next : StageId} {segment inner : Segment} {set : SetId}

/-- At the beginning the sets that pipelines can start from are those that are scanned. -/
theorem Beginning.scanned (beginning : s.Beginning g) (isSource : (s.node p).sourceSet = some set)
    : g.userSet? (s.node p).atomic = some set ∧ set.isAggregationResult = false := by
  obtain ⟨c, scan, found, names⟩ := beginning.exists_scan isSource
  refine ⟨?_, Computation.plain_of_set? names⟩
  rw [Graph.userSet?, Graph.computation_eq_ok.mp found, Option.bind_some, if_pos (.inl scan), names]

/-- At the beginning nothing reads a set that planning has to make. -/
theorem Beginning.not_hasConsumers (beginning : s.Beginning g)
    (distinct : (g.atomics.flatMap (g.ownKeys s.jobId)).Nodup) {key : String}
    (generated : key ∈ g.generatedKeys s.jobId)
    : s.hasConsumers key = false := by
  rw [hasConsumers]
  cases registered : s.sources.get? key with
  | none => rfl
  | some id =>
      obtain ⟨set, isSource, rfl⟩ := (beginning.registered key id).mp registered
      have known := beginning.mirrors.known id (has_of_source isSource)
      exact absurd generated
        (Graph.userSet_not_generated distinct known (beginning.scanned isSource).1)

theorem Beginning.ownKeys (beginning : s.Beginning g)
    : OwnKeys g s [] := by
  refine ⟨?_, ?_, ?_⟩
  · intro p set isSource
    exact Graph.mem_ownKeys_of_userSet (beginning.scanned isSource).1 s.jobId
  · intro p set isSource table
    simp [(beginning.scanned isSource).2] at table
  · intro p _ _ c found
    rw [beginning.graph] at found
    exact ⟨c, found, rfl, rfl, rfl⟩

section Planned

variable (reaches : ReachesNamed g first s followed) (own : OwnKeys g s followed)
  (course : (s.view stats).Course source init last segment)
  (single : ∀ a ∈ g.atomics, a.kind = .other → ∃ input, a.ReadsOnly input)

include reaches own course single

/-- A pipeline comes to nodes that are not complete. -/
theorem OwnKeys.visited (member : p ∈ init ++ [last])
    : (s.view stats).Visited g p := by
  have wired : Arena.Wired g (s.view stats).topology.arena := reaches.wired
  have ledger : (s.view stats).topology.arena.Ledger followed := reaches.ledger
  obtain ⟨q, edge, fresh⟩ := exists_fresh_edge wired ledger course member
  have inside := wired.has_consumer edge
  refine ⟨inside, wired.known p inside, ?_, length_active wired ledger single edge fresh, ?_⟩
  · exact fun scan => wired.scan_reads_nothing scan q edge
  · exact own.given p inside (not_reached_of_fresh wired ledger single edge fresh)

variable
  (pipeline
    : (s.view stats).Pipeline next ((s.view stats).sourceDraft source set) source
        (init ++ [last]) inner)
  (whole : segment = inner.through source)

include pipeline whole

/-- The node where a pipeline ends becomes a source of a set of its own. -/
theorem OwnKeys.newSource {made : SetId} (new : segment.newSource = some (last, made))
    : made.key ∈ g.ownKeys s.jobId (s.node last).atomic
      ∧ (made.isAggregationResult = true → (s.node last).active.length ≤ 1) := by
  have wired : Arena.Wired g (s.view stats).topology.arena := reaches.wired
  have visited := own.visited reaches course single (p := last) (by simp)
  rw [whole] at new
  obtain ⟨-, deposit, -⟩ := pipeline.deposits.source last made new
  rcases visited.deposit wired deposit with
    ⟨⟨given, named, key⟩, plain⟩ | ⟨member, ⟨plain, -⟩ | ⟨-, -, one⟩⟩
  · exact ⟨key ▸ Graph.mem_ownKeys_of_userSet named s.jobId, by simp [plain]⟩
  · exact ⟨Graph.mem_ownKeys_of_jobKeys member, by simp [plain]⟩
  · exact ⟨Graph.mem_ownKeys_of_jobKeys member, fun _ => one.le⟩

omit single pipeline whole in
/-- A node that is not complete after a pipeline goes by the set that it was given.
Witness: the output of the last node is redirected only if it becomes a source.
-/
theorem OwnKeys.given_after (distinct : (g.atomics.map Atomic.computation).Nodup)
    (inside : s.topology.arena.Has p)
    (missing
      : ¬ s.topology.arena.Reached
          (followed ++ links (Arena.coursePath source init last)) p)
    {c : Computation}
    (found
      : (segment.apply s.topology).graph.computation (s.node p).atomic.computation = .ok c)
    : ∃ d, g.computation (s.node p).atomic.computation = .ok d ∧ c.Like d := by
  have wired : Arena.Wired g (s.view stats).topology.arena := reaches.wired
  have ledger : (s.view stats).topology.arena.Ledger followed := reaches.ledger
  have named := reaches.named
  have before := own.given p inside fun complete => missing complete.mono
  by_cases same : (s.node p).atomic.computation = (s.node last).atomic.computation
  · obtain rfl := wired.eq_of_computation distinct inside (reaches.has_last course) same
    have none : segment.newSource = none := by
      cases new : segment.newSource with
      | none => rfl
      | some pair =>
          obtain ⟨id, made⟩ := pair
          obtain rfl := eq_last_of_newSource course new
          have isSource := course.sourceSet_last inside
          rw [new] at isSource
          exact absurd (Arena.sources_after wired ledger course (by simp [isSource])).1 missing
    rcases course.graph_of_no_source none with unchanged | ⟨-, d, strategy, here, built⟩
    · rw [show (segment.apply s.topology).graph = _ from unchanged] at found
      exact before c found
    · rw [show (segment.apply s.topology).graph = _ from built] at found
      obtain ⟨e, there, rfl⟩ := Graph.of_computation_modify found
      obtain ⟨given, known, like⟩ := before e there
      split
      · exact ⟨given, known, like.sets, like.keeps, like.combines⟩
      · exact ⟨given, known, like⟩
  · have there : s.topology.graph.computations.get? (s.node p).atomic.computation = some c :=
      (course.computation_other named same).symm.trans (Graph.computation_eq_ok.mp found)
    exact before c (Graph.computation_eq_ok.mpr there)

theorem OwnKeys.commit (distinct : (g.atomics.map Atomic.computation).Nodup)
    : OwnKeys g (s.commit key source reached segment)
        (followed ++ links (Arena.coursePath source init last)) := by
  obtain ⟨jobId, -⟩ := settings_commit s key source reached segment
  have last_inside := reaches.has_last course
  refine ⟨?_, ?_, ?_⟩
  · intro p made isSource
    rw [jobId, atomic_commit course]
    rcases sourceSet_commit_cases course last_inside isSource with was | ⟨rfl, new⟩
    · exact own.sources p made was
    · exact (own.newSource reaches course single pipeline whole new).1
  · intro p made isSource table
    refine (length_active_commit course p).trans ?_
    rcases sourceSet_commit_cases course last_inside isSource with was | ⟨rfl, new⟩
    · exact own.results p made was table
    · exact (own.newSource reaches course single pipeline whole new).2 table
  · intro p inside missing c found
    rw [topology_commit] at inside missing found
    rw [atomic_commit course] at found ⊢
    have frame := course.frame
    refine own.given_after reaches course distinct (frame.has_iff.mp inside) ?_ found
    exact fun complete => missing ((frame.reached_iff _ p).mpr complete)

end Planned

theorem OwnKeys.penalize (own : OwnKeys g s followed) (key : String) (source : NodeId)
    : OwnKeys g (s.penalize key source) followed := by
  have frame := Arena.frame_rotate s.topology.arena source
  have atomic : ∀ q, ((s.penalize key source).node q).atomic = (s.node q).atomic := frame.atomic
  refine ⟨?_, ?_, ?_⟩
  · intro p set isSource
    rw [sourceSet_penalize] at isSource
    rw [atomic]
    exact own.sources p set isSource
  · intro p set isSource table
    rw [sourceSet_penalize] at isSource
    rw [length_active_penalize]
    exact own.results p set isSource table
  · intro p inside missing
    rw [atomic]
    exact own.given p (frame.has_iff.mp inside) fun complete =>
      missing ((frame.reached_iff followed p).mpr complete)

/-- The session is one that a run leads to, its registry goes by the sets of its sources, and
their keys are those of their atomics.
-/
def WellKeyed (g : Graph) (first s : Session) : Prop :=
  ∃ followed, ReachesNamed g first s followed ∧ s.Keyed ∧ OwnKeys g s followed

theorem Beginning.wellKeyed (beginning : s.Beginning g) (named : g.Named)
    : WellKeyed g s s :=
  ⟨[], beginning.reachesNamed named, beginning.keyed, beginning.ownKeys⟩

theorem WellKeyed.jobId (wellKeyed : WellKeyed g first s)
    : s.jobId = first.jobId := by
  obtain ⟨followed, reaches, -⟩ := wellKeyed
  exact reaches.descends.jobId

theorem steady_wellKeyed (g : Graph) (first : Session)
    (distinct : (g.atomics.map Atomic.computation).Nodup)
    (single : ∀ a ∈ g.atomics, a.kind = .other → ∃ input, a.ReadsOnly input)
    : Steady fun _ s => WellKeyed g first s :=
  steady_of_named (P := fun followed _ s => s.Keyed ∧ OwnKeys g s followed)
    (fun reaches ⟨keyed, own⟩ _ course pipeline whole =>
      ⟨keyed.commit reaches course, own.commit reaches course single pipeline whole distinct⟩)
    (fun ⟨keyed, own⟩ key source => ⟨keyed.penalize key source, own.penalize key source⟩)
    (fun ⟨keyed, own⟩ => ⟨keyed.prune, own.sources, own.results, own.given⟩)

end Session

end DataflowPlan
