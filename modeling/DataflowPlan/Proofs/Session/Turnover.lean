import DataflowPlan.Proofs.Analysis.Supply
import DataflowPlan.Proofs.Session.SetKeys

/-! What planning does to the sets of a job: which of them an increment declares and writes, which
one it drops, and of which sources consumers are still to plan before and after it.
-/

namespace DataflowPlan

open LocalCluster (consumed?)

namespace Increment

/-- The sets that an increment makes for the job: those that it declares, and the hash tables that
its stages leave to others.
-/
def jobSets (i : Increment) : List SetId :=
  i.intermediateSets ++ i.stages.filterMap fun s => s.sink?.filter SetId.isAggregationResult

theorem mem_jobSets {i : Increment} {set : SetId}
    : set ∈ i.jobSets
        ↔ set ∈ i.intermediateSets
          ∨ ∃ stage ∈ i.stages, stage.sink? = some set ∧ set.isAggregationResult = true := by
  simp [jobSets, Option.filter_eq_some_iff]

theorem mem_jobSets_append {i j : Increment} {set : SetId}
    : set ∈ (i.append j).jobSets ↔ set ∈ i.jobSets ∨ set ∈ j.jobSets := by
  simp only [jobSets, append, List.filterMap_append, List.mem_append]
  tauto

end Increment

namespace Session

/-- The set that the source registered under the key reads. -/
def readSet? (s : Session) (key : String) : Option SetId :=
  (s.sources.get? key).bind fun id => (s.node id).sourceSet

/-- The source registered under the key reads the hash table of an aggregate. -/
def readsResult (s : Session) (key : String) : Bool :=
  (s.readSet? key).any SetId.isAggregationResult

theorem hasConsumers_iff {s : Session} {key : String}
    : s.hasConsumers key = true
        ↔ ∃ id, s.sources.get? key = some id ∧ (s.node id).active ≠ [] := by
  unfold hasConsumers
  cases s.sources.get? key with
  | none => simp
  | some id => simp [isLive_iff]

-----------------------------------------------------------------------------------------------
-- Waiting
-----------------------------------------------------------------------------------------------

/-- The same sources have consumers to plan, and read the same sets. -/
structure SameReads (m s : Session) : Prop where
  jobId : m.jobId = s.jobId
  consumers : ∀ key, m.hasConsumers key = s.hasConsumers key
  results : ∀ key, s.hasConsumers key = true → m.readsResult key = s.readsResult key

variable {s m : Session} {stats : Statistics}

theorem SameReads.trans {first : Session} (later : s.SameReads m) (before : m.SameReads first)
    : s.SameReads first := by
  refine ⟨later.jobId.trans before.jobId,
    fun key => (later.consumers key).trans (before.consumers key), ?_⟩
  intro key consumers
  exact (later.results key ((before.consumers key).trans consumers)).trans
    (before.results key consumers)

theorem sameReads_penalize (s : Session) (key : String) (source : NodeId)
    : (s.penalize key source).SameReads s := by
  refine ⟨rfl, ?_, ?_⟩
  · intro other
    rw [Bool.eq_iff_iff, hasConsumers_iff, hasConsumers_iff]
    refine exists_congr fun id => and_congr_right fun _ => ?_
    rw [← List.length_pos_iff, ← List.length_pos_iff, length_active_penalize]
  · intro other _
    rw [readsResult, readsResult, readSet?, readSet?]
    simp only [sourceSet_penalize]
    rfl

theorem sameReads_prune (s : Session)
    : s.prune.SameReads s := by
  have found : ∀ key, s.prune.sources.get? key = (s.sources.get? key).filter s.isLive := by
    intro key
    rw [prune, Table.get?_filter]
  refine ⟨rfl, ?_, ?_⟩
  · intro key
    rw [Bool.eq_iff_iff, hasConsumers_iff, hasConsumers_iff]
    refine exists_congr fun id => ?_
    have same : (s.prune.node id).active = (s.node id).active := rfl
    rw [found, Option.filter_eq_some_iff, isLive_iff, same, and_assoc, and_self_iff]
  · intro key consumers
    obtain ⟨id, here, live⟩ := hasConsumers_iff.mp consumers
    have there : s.prune.sources.get? key = some id := by
      rw [found, Option.filter_eq_some_iff, isLive_iff]
      exact ⟨here, live⟩
    rw [readsResult, readsResult, readSet?, readSet?, here, there]
    rfl

/-- Refusals and clean-ups change nothing that is read. -/
theorem Waits.sameReads (waits : s.Waits m)
    : m.SameReads s :=
  waits.keeps (P := fun m => m.SameReads s)
    (fun same key source => (sameReads_penalize _ key source).trans same)
    (fun same => (sameReads_prune _).trans same) ⟨rfl, fun _ => rfl, fun _ _ => rfl⟩

-----------------------------------------------------------------------------------------------
-- Planning
-----------------------------------------------------------------------------------------------

/-- A source with one consumer left has none once that one is planned. -/
theorem spent_of_commit {key : String} {source last : NodeId} {init : List NodeId}
    {reached : StageId} {segment : Segment}
    (course : (s.view stats).Course source init last segment)
    (one : (s.node source).active.length ≤ 1)
    : ((s.commit key source reached segment).node source).active = [] := by
  rw [active_commit course, List.drop_eq_nil_iff, List.count_cons_self]
  exact one.trans (Nat.succ_le_succ (Nat.zero_le _))

/-- Once its last consumer is planned a source is read no more. -/
theorem not_hasConsumers_commit {key : String} {source last : NodeId} {init : List NodeId}
    {reached : StageId} {segment : Segment}
    (course : (s.view stats).Course source init last segment)
    (one : (s.node source).active.length ≤ 1)
    : (s.commit key source reached segment).hasConsumers key = false := by
  have spent : ((s.commit key source reached segment).node source).active = [] :=
    spent_of_commit course one
  rw [Bool.eq_false_iff]
  intro consumers
  obtain ⟨id, found, -⟩ := hasConsumers_iff.mp consumers
  rw [node_commit] at spent
  rw [sources_commit, if_pos ⟨rfl, spent⟩] at found
  simp at found

/-- What an increment does to the sets of the job. It declares such sets; its stages write declared
sets, hash tables that are still to be read, or sets that are not the job's; they drop only what is
not read any more. A source with consumers to plan had some before, or reads what the increment has
made.
-/
structure Turnover (g : Graph) (s next : Session) (increment : Increment) : Prop where
  jobId : next.jobId = s.jobId
  declared : ∀ set ∈ increment.intermediateSets, set.key ∈ g.generatedKeys s.jobId
  sinks
    : ∀ stage ∈ increment.stages,
        ∀ set,
          stage.sink? = some set →
            set.isAggregationResult = false
                ∧ (set.key ∈ g.generatedKeys s.jobId →
                    ∃ other ∈ increment.intermediateSets, other.key = set.key)
              ∨ set.isAggregationResult = true
                ∧ set.key ∈ g.generatedKeys s.jobId
                ∧ next.hasConsumers set.key = true
  drops
    : ∀ stage ∈ increment.stages,
        ∀ set,
          consumed? stage = some set →
            next.hasConsumers set.key = false
            ∧ (∀ other ∈ increment.intermediateSets, other.key ≠ set.key)
            ∧ ∀ other ∈ increment.stages,
                ∀ sink, other.sink? = some sink → sink.key ≠ set.key
  spent
    : ∀ key,
        s.hasConsumers key = true →
          next.hasConsumers key = false →
            s.readsResult key = true →
              ∃ stage ∈ increment.stages, ∃ set, consumed? stage = some set ∧ set.key = key
  made
    : ∀ key ∈ g.generatedKeys s.jobId,
        next.hasConsumers key = true →
          s.hasConsumers key = true ∧ next.readsResult key = s.readsResult key
            ∨ next.readsResult key = false
              ∧ (∃ set ∈ increment.intermediateSets, set.key = key)
            ∨ next.readsResult key = true
              ∧ ∃ stage ∈ increment.stages,
                  ∃ set,
                    stage.sink? = some set ∧ set.isAggregationResult = true ∧ set.key = key

/-- A pipeline that is planned in a session which a run leads to, in a job whose sets all have
keys of their own.
-/
structure Planning (g : Graph) (first s : Session) (followed : List Arena.Edge)
    (stats : Statistics) (key : String) (source : NodeId) (set : SetId) (init : List NodeId)
    (last : NodeId) (segment : Segment) : Prop where
  single : ∀ a ∈ g.atomics, a.kind = .other → ∃ input, a.ReadsOnly input
  keys : (g.atomics.flatMap (g.ownKeys s.jobId)).Nodup
  reaches : ReachesNamed g first s followed
  keyed : s.Keyed
  own : OwnKeys g s followed
  registered : s.sources.get? key = some source
  live : (s.node source).active ≠ []
  isSource : (s.node source).sourceSet = some set
  course : (s.view stats).Course source init last segment
  pipeline
    : ∃ inner,
        (s.view stats).Pipeline s.nextStage ((s.view stats).sourceDraft source set) source
            (init ++ [last]) inner
          ∧ segment = inner.through source

namespace Planning

variable {g : Graph} {first : Session} {followed : List Arena.Edge} {key : String}
  {source last p q : NodeId} {set made : SetId} {init : List NodeId} {reached : StageId}
  {segment : Segment} {other : String}

section Keys

variable (planning : Planning g first s followed stats key source set init last segment)

include planning

theorem visited (member : p ∈ init ++ [last])
    : (s.view stats).Visited g p :=
  planning.own.visited planning.reaches planning.course planning.single member

theorem deposits : (s.view stats).Deposits (init ++ [last]) segment := by
  obtain ⟨inner, pipeline, rfl⟩ := planning.pipeline
  exact pipeline.deposits.through source

/-- The planned source is registered under the key of its set. -/
theorem key_eq : set.key = key := by
  obtain ⟨own, here, named⟩ := planning.keyed.entries key source planning.registered
  obtain rfl := Option.some.inj (planning.isSource.symm.trans here)
  exact named

/-- A node that a pipeline comes to is no source yet. -/
theorem not_source (member : p ∈ init ++ [last])
    : (s.node p).sourceSet = none := by
  have wired : Arena.Wired g (s.view stats).topology.arena := planning.reaches.wired
  have ledger : (s.view stats).topology.arena.Ledger followed := planning.reaches.ledger
  obtain ⟨q, edge, fresh⟩ := exists_fresh_edge wired ledger planning.course member
  by_contra isSource
  exact not_reached_of_fresh wired ledger planning.single edge fresh
    (planning.reaches.ledger.sources p isSource).1

/-- No source reads a set with a key of a node that the pipeline comes to. -/
theorem key_ne (member : p ∈ init ++ [last])
    (here : other ∈ g.ownKeys s.jobId (s.node p).atomic)
    (isSource : (s.node q).sourceSet = some made)
    : other ≠ made.key := by
  rintro rfl
  have visited := planning.visited member
  have there := has_of_source isSource
  have atomic : (s.node q).atomic = (s.node p).atomic :=
    eq_of_nodup_flatMap planning.keys (planning.reaches.wired.known q there) visited.known
      (planning.own.sources q made isSource) here
  obtain rfl := planning.reaches.wired.sound.id_eq there visited.inside
    (congrArg Atomic.output atomic)
  simp [planning.not_source member] at isSource

/-- What the pipeline writes has a key of a node that it comes to. -/
theorem deposit_mem (member : p ∈ init ++ [last])
    (deposit : (s.view stats).Deposit p segment made)
    : made.key ∈ g.ownKeys s.jobId (s.node p).atomic := by
  have wired : Arena.Wired g (s.view stats).topology.arena := planning.reaches.wired
  rcases (planning.visited member).deposit wired deposit with
    ⟨⟨own, named, key⟩, -⟩ | ⟨member, -⟩
  · exact key ▸ Graph.mem_ownKeys_of_userSet named s.jobId
  · exact Graph.mem_ownKeys_of_jobKeys member

/-- Of what the pipeline writes, the job's are the sets that it declares and the hash table that it
hands on.
-/
theorem deposit_cases (member : p ∈ init ++ [last])
    (deposit : (s.view stats).Deposit p segment made)
    : made.isAggregationResult = false
          ∧ (made.key ∈ g.generatedKeys s.jobId →
              ∃ other ∈ segment.intermediateSets, other.key = made.key)
      ∨ made.isAggregationResult = true
          ∧ made.key ∈ g.generatedKeys s.jobId
          ∧ segment.newSource = some (p, made) := by
  have wired : Arena.Wired g (s.view stats).topology.arena := planning.reaches.wired
  have visited := planning.visited member
  rcases visited.deposit wired deposit with
    ⟨⟨own, named, key⟩, plain⟩ | ⟨generated, ⟨plain, declared⟩ | ⟨table, new, -⟩⟩
  · refine .inl ⟨plain, fun generated => ?_⟩
    exact absurd (key ▸ generated) (Graph.userSet_not_generated planning.keys visited.known named)
  · exact .inl ⟨plain, fun _ => declared⟩
  · exact .inr ⟨table, Graph.mem_generatedKeys visited.known generated, new⟩

theorem newSource_cases (new : segment.newSource = some (last, made))
    : last ∈ init ++ [last] ∧ (s.view stats).Deposit last segment made
      ∧ (made.isAggregationResult = true →
          ∃ stage ∈ segment.stages, stage.sink? = some made) :=
  planning.deposits.source last made new

theorem newSource_ne (new : segment.newSource = some (last, made)) {kept : SetId}
    (isSource : (s.node q).sourceSet = some kept)
    : made.key ≠ kept.key := by
  obtain ⟨member, deposit, -⟩ := planning.newSource_cases new
  exact planning.key_ne member (planning.deposit_mem member deposit) isSource

/-- Any other source than the planned one keeps its consumers and its set. -/
theorem source_kept (isSource : (s.node q).sourceSet = some made) (reached : StageId)
    : (q ≠ source →
          ((s.commit key source reached segment).node q).active = (s.node q).active)
        ∧ ((s.commit key source reached segment).node q).sourceSet = (s.node q).sourceSet := by
  have off : q ∉ init ++ [last] := by
    intro member
    simp [planning.not_source member] at isSource
  have node : (s.commit key source reached segment).node q
      = (segment.apply (s.view stats).topology).arena.node q := node_commit _ _ _ _ _ _
  refine ⟨fun differs => ?_, ?_⟩
  · have count : (source :: (s.view stats).steps init).count q = 0 := by
      refine List.count_eq_zero.mpr fun member => ?_
      rcases List.mem_cons.mp member with same | step
      · exact differs same
      · exact off (List.mem_append_left _ (List.mem_filter.mp step).1)
    rw [active_commit planning.course, count, List.drop_zero]
  · rw [node, planning.course.sourceSet_other]
    · rfl
    · rintro rfl
      exact off (by simp)

-----------------------------------------------------------------------------------------------
-- Consumers
-----------------------------------------------------------------------------------------------

/-- What becomes a source has consumers to plan. -/
theorem hasConsumers_of_new (new : segment.newSource = some (last, made)) (reached : StageId)
    : (s.commit key source reached segment).hasConsumers made.key = true
      ∧ (s.commit key source reached segment).readsResult made.key
        = made.isAggregationResult := by
  have fresh : made.key ≠ key := planning.key_eq ▸ planning.newSource_ne new planning.isSource
  have found : (s.commit key source reached segment).sources.get? made.key = some last := by
    rw [sources_commit, if_neg fun both => fresh both.1, new]
    exact if_pos rfl
  refine ⟨hasConsumers_iff.mpr ⟨last, found, planning.reaches.newSource_live planning.course new⟩,
    ?_⟩
  rw [readsResult, readSet?, found, Option.bind_some,
    sourceSet_commit planning.course (planning.reaches.has_last planning.course), new]
  simp

/-- After a planned pipeline a source has consumers to plan if it is new, or had some before. -/
theorem hasConsumers_cases
    (consumers : (s.commit key source reached segment).hasConsumers other = true)
    : (∃ made, segment.newSource = some (last, made) ∧ made.key = other)
      ∨ s.hasConsumers other = true
        ∧ (s.commit key source reached segment).readsResult other = s.readsResult other := by
  obtain ⟨id, found, waits⟩ := hasConsumers_iff.mp consumers
  by_cases new : ∃ made, segment.newSource = some (last, made) ∧ made.key = other
  · exact .inl new
  · have before := registered_of_commit planning.course found new
    obtain ⟨own, isSource, -⟩ := planning.keyed.entries other id before
    obtain ⟨active, kept⟩ := planning.source_kept isSource reached
    have waiting : (s.node id).active ≠ [] := by
      by_cases same : id = source
      · exact same ▸ planning.live
      · exact active same ▸ waits
    refine .inr ⟨hasConsumers_iff.mpr ⟨id, before, waiting⟩, ?_⟩
    rw [readsResult, readsResult, readSet?, readSet?, found, before, Option.bind_some,
      Option.bind_some, kept]

/-- Any other key than that of the planned source keeps a source with consumers to plan. -/
theorem hasConsumers_of_other (consumers : s.hasConsumers other = true) (differs : other ≠ key)
    : (s.commit key source reached segment).hasConsumers other = true := by
  obtain ⟨id, found, waits⟩ := hasConsumers_iff.mp consumers
  obtain ⟨own, isSource, named⟩ := planning.keyed.entries other id found
  have off : id ≠ source := by
    rintro rfl
    obtain rfl := Option.some.inj (isSource.symm.trans planning.isSource)
    exact differs (named.symm.trans planning.key_eq)
  obtain ⟨active, -⟩ := planning.source_kept isSource reached
  refine hasConsumers_iff.mpr ⟨id, ?_, active off ▸ waits⟩
  rw [sources_commit, if_neg fun both => differs both.1]
  split
  · next target made new =>
      obtain rfl := eq_last_of_newSource planning.course new
      have differ : other ≠ made.key := named ▸ (planning.newSource_ne new isSource).symm
      rw [if_neg differ]
      exact found
  · exact found

/-- The hash table of an aggregate has one consumer, so that nothing reads it after that one. -/
theorem not_hasConsumers_of_result (table : set.isAggregationResult = true)
    : (s.commit key source reached segment).hasConsumers key = false :=
  not_hasConsumers_commit planning.course
    (planning.own.results source set planning.isSource table)

-----------------------------------------------------------------------------------------------
-- Stages
-----------------------------------------------------------------------------------------------

/-- Of the stages the first one alone drops a set: the one that it starts from, if that is the hash
table of an aggregate.
-/
theorem drops
    : (∀ stage ∈ segment.stages,
          ∀ dropped,
            consumed? stage = some dropped → dropped = set ∧ set.isAggregationResult = true)
        ∧ (set.isAggregationResult = true →
            ∃ stage ∈ segment.stages, consumed? stage = some set) := by
  obtain ⟨inner, pipeline, rfl⟩ := planning.pipeline
  exact pipeline.drops rfl

/-- What planning the pipeline does to the sets of the job. -/
theorem turnover
    : Turnover g s (s.commit key source reached segment)
        ⟨segment.stages, segment.intermediateSets⟩ := by
  have wired : Arena.Wired g (s.view stats).topology.arena := planning.reaches.wired
  refine ⟨(settings_commit s key source reached segment).1, ?_, ?_, ?_, ?_, ?_⟩
  · intro declared member
    obtain ⟨q, onPath, made⟩ := planning.deposits.declared declared member
    have visited := planning.visited onPath
    exact Graph.mem_generatedKeys visited.known (visited.made wired made)
  · intro stage member sink written
    obtain ⟨q, onPath, deposit⟩ := planning.deposits.sinks stage member sink written
    rcases planning.deposit_cases onPath deposit with plain | ⟨table, generated, new⟩
    · exact .inl plain
    · obtain rfl := eq_last_of_newSource planning.course new
      exact .inr ⟨table, generated, (planning.hasConsumers_of_new new reached).1⟩
  · intro stage member dropped drops
    obtain ⟨rfl, table⟩ := planning.drops.1 stage member dropped drops
    refine ⟨planning.key_eq ▸ planning.not_hasConsumers_of_result table, ?_, ?_⟩
    · intro declared listed
      obtain ⟨q, onPath, made⟩ := planning.deposits.declared declared listed
      exact planning.key_ne onPath
        (Graph.mem_ownKeys_of_jobKeys ((planning.visited onPath).made wired made))
        planning.isSource
    · intro other listed sink written
      obtain ⟨q, onPath, deposit⟩ := planning.deposits.sinks other listed sink written
      exact planning.key_ne onPath (planning.deposit_mem onPath deposit) planning.isSource
  · intro other consumers none result
    have same : other = key := by
      by_contra differs
      rw [planning.hasConsumers_of_other consumers differs] at none
      simp at none
    have table : set.isAggregationResult = true := by
      rw [readsResult, readSet?, same, planning.registered, Option.bind_some, planning.isSource]
        at result
      exact result
    obtain ⟨stage, member, drops⟩ := planning.drops.2 table
    exact ⟨stage, member, set, drops, planning.key_eq.trans same.symm⟩
  · intro other generated consumers
    rcases planning.hasConsumers_cases consumers with ⟨made, new, rfl⟩ | before
    · obtain ⟨onPath, deposit, written⟩ := planning.newSource_cases new
      obtain ⟨-, reads⟩ := planning.hasConsumers_of_new new reached
      rw [reads]
      rcases planning.deposit_cases onPath deposit with ⟨plain, declared⟩ | ⟨table, -, -⟩
      · exact .inr (.inl ⟨plain, declared generated⟩)
      · obtain ⟨stage, member, sink⟩ := written table
        exact .inr (.inr ⟨table, stage, member, made, sink, table, rfl⟩)
    · exact .inl before

end Keys

end Planning

-----------------------------------------------------------------------------------------------
-- Increments
-----------------------------------------------------------------------------------------------

/-- An increment does the same to the job's sets if it is planned after waiting. -/
theorem Turnover.of_sameReads {g : Graph} {next : Session} {increment : Increment}
    (turnover : Turnover g m next increment) (same : m.SameReads s)
    : Turnover g s next increment := by
  obtain ⟨jobId, consumers, results⟩ := same
  obtain ⟨nextJob, declared, sinks, drops, spent, made⟩ := turnover
  rw [jobId] at declared sinks made
  refine ⟨nextJob.trans jobId, declared, sinks, drops, ?_, ?_⟩
  · intro key waiting none result
    exact spent key ((consumers key).trans waiting) none ((results key waiting).trans result)
  · intro key generated waiting
    refine (made key generated waiting).imp_left fun ⟨before, reads⟩ => ?_
    rw [consumers] at before
    exact ⟨before, reads.trans (results key before)⟩

/-- The sets that an increment makes for the job have keys that the job can make. -/
theorem Turnover.jobSets {g : Graph} {next : Session} {increment : Increment}
    (turnover : Turnover g s next increment) {set : SetId} (member : set ∈ increment.jobSets)
    : set.key ∈ g.generatedKeys s.jobId := by
  rcases Increment.mem_jobSets.mp member with declared | ⟨stage, listed, sink, table⟩
  · exact turnover.declared set declared
  · rcases turnover.sinks stage listed set sink with ⟨plain, -⟩ | ⟨-, generated, -⟩
    · rw [table] at plain
      simp at plain
    · exact generated

/-- An increment that is not empty turns over the sets of the job. -/
theorem WellKeyed.turnover {g : Graph} {first next : Session} {increment : Increment}
    (wellKeyed : WellKeyed g first s)
    (distinct : (g.atomics.map Atomic.computation).Nodup)
    (single : ∀ a ∈ g.atomics, a.kind = .other → ∃ input, a.ReadsOnly input)
    (keys : (g.atomics.flatMap (g.ownKeys s.jobId)).Nodup)
    (planned : s.planIncrement stats = (.ok increment, next)) (some : increment.isEmpty = false)
    : Turnover g s next increment ∧ WellKeyed g first next := by
  have steady := steady_wellKeyed g first distinct single
  have ends := s.planIncrement_comesTo stats
  rw [planned] at ends
  have pruned := @Steady.prune _ steady .empty _ wellKeyed
  refine ⟨?_, @Steady.comesTo _ steady _ _ _ .empty pruned ends⟩
  cases ends with
  | idle tries none => simp [Increment.isEmpty, Increment.empty] at some
  | @planned count skip m increment next tries attempted =>
      have waits := tries.waits
      obtain ⟨followed, reaches, keyed, own⟩ := @Steady.waits _ steady _ _ .empty wellKeyed waits
      have same := waits.sameReads
      obtain ⟨key, source, reached, segment, done, rfl, rfl⟩ := committed_of_attempt attempted
      obtain ⟨init, last, set, inner, course, isSource, pipeline, whole⟩ :=
        View.pipeline_of_analyze done.planned
      obtain ⟨registered, live⟩ := done.live
      have planning : Planning g first m followed stats key source set init last segment :=
        ⟨single, same.jobId ▸ keys, reaches, keyed, own, registered, live, isSource, course,
          inner, pipeline, whole⟩
      exact planning.turnover.of_sameReads same

end Session

end DataflowPlan
