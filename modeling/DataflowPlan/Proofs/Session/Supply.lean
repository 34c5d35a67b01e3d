import DataflowPlan.Proofs.Session.JobSources
import DataflowPlan.Proofs.Session.Turnover

/-! What the stages of an increment live on. A stage that reads a set of the job's reads what a
source reads that is still to be planned, or what its increment declares. What is dropped had one
reader left, and what is read from then on was read before or is written.
-/

namespace DataflowPlan.Session

variable {g : Graph} {first s m next : Session} {followed : List Arena.Edge} {stats : Statistics}
  {skip : List String} {key : String} {source last : NodeId} {init : List NodeId}
  {reached : StageId} {segment inner : Segment} {set other : SetId}

-----------------------------------------------------------------------------------------------
-- Readers
-----------------------------------------------------------------------------------------------

theorem kind_ne_user (intermediate : set.isIntermediate = true)
    : set.kind ≠ .user := by
  intro user
  simp [SetId.isIntermediate, user] at intermediate

/-- A source that has consumers to plan is registered for the set. -/
def Reads (s : Session) (set : SetId) : Prop :=
  ∃ id,
    s.sources.get? set.key = some id
    ∧ (s.node id).active ≠ []
    ∧ (s.node id).sourceSet = some set

theorem Reads.hasConsumers (reads : s.Reads set)
    : s.hasConsumers set.key = true := by
  obtain ⟨id, registered, waits, -⟩ := reads
  exact hasConsumers_iff.mpr ⟨id, registered, waits⟩

/-- Two sets of one key are not read at the same time. -/
theorem Reads.eq (reads : s.Reads set) (too : s.Reads other) (same : set.key = other.key)
    : set = other := by
  obtain ⟨id, registered, -, isSource⟩ := reads
  obtain ⟨id', registered', -, isSource'⟩ := too
  rw [same, registered'] at registered
  obtain rfl := Option.some.inj registered
  exact Option.some.inj (isSource.symm.trans isSource')

theorem Reads.of_prune (reads : s.prune.Reads set)
    : s.Reads set := by
  obtain ⟨id, registered, rest⟩ := reads
  rw [prune, Table.get?_filter, Option.filter_eq_some_iff] at registered
  exact ⟨id, registered.1, rest⟩

theorem Reads.of_penalize (reads : (s.penalize key source).Reads set)
    : s.Reads set := by
  obtain ⟨id, registered, waits, isSource⟩ := reads
  exact ⟨id, registered, (active_penalize_ne s key source id).mp waits,
    (sourceSet_penalize s key source id).symm.trans isSource⟩

/-- Refusals and clean-ups lead to no other readers. -/
theorem Reads.of_waits (waits : s.Waits m) (reads : m.Reads set)
    : s.Reads set :=
  waits.keeps (P := fun m => m.Reads set → s.Reads set)
    (fun known _ _ reads => known reads.of_penalize) (fun known reads => known reads.of_prune) id
    reads

/-- What is read after a planned pipeline was read before it, or has the key of what the pipeline
leaves.
-/
theorem Reads.of_commit (course : (s.view stats).Course source init last segment)
    (inside : s.topology.arena.Has last)
    (reads : (s.commit key source reached segment).Reads set)
    : s.Reads set ∨ ∃ made, segment.newSource = some (last, made) ∧ made.key = set.key := by
  obtain ⟨id, registered, waits, isSource⟩ := reads
  by_cases new : ∃ made, segment.newSource = some (last, made) ∧ made.key = set.key
  · exact .inr new
  · have before := registered_of_commit course registered new
    rcases sourceSet_commit_cases course inside isSource with was | ⟨-, here⟩
    · exact .inl ⟨id, before, active_of_commit course waits, was⟩
    · exact absurd ⟨set, here, rfl⟩ new

-----------------------------------------------------------------------------------------------
-- Hash tables of aggregates
-----------------------------------------------------------------------------------------------

/-- The hash table of an aggregate stays in memory, and no more than one consumer reads it. -/
def ReadOnce (s : Session) : Prop :=
  ∀ p set,
    (s.node p).sourceSet = some set →
      set.isAggregationResult = true →
        set.kind = .partitionedHash ∧ (s.node p).active.length ≤ 1

theorem Beginning.readOnce (beginning : s.Beginning g)
    : s.ReadOnce := by
  intro p set isSource table
  obtain ⟨c, -, -, names⟩ := beginning.exists_scan isSource
  simp [Computation.plain_of_set? names] at table

theorem ReadOnce.commit (once : s.ReadOnce) (reaches : Reaches g first s followed)
    (course : (s.view stats).Course source init last segment) {path : List NodeId}
    (pipeline
      : (s.view stats).Pipeline s.nextStage ((s.view stats).sourceDraft source set) source path
          inner)
    (whole : segment = inner.through source)
    : (s.commit key source reached segment).ReadOnce := by
  intro p made isSource table
  have fewer : ((s.commit key source reached segment).node p).active.length
      ≤ (s.node p).active.length := length_active_commit course p
  rcases sourceSet_commit_cases course (reaches.has_last course) isSource with was | ⟨rfl, new⟩
  · obtain ⟨kind, one⟩ := once p made was table
    exact ⟨kind, fewer.trans one⟩
  · rw [whole] at new
    obtain ⟨-, deposit, -⟩ := pipeline.deposits.source p made new
    cases deposit with
    | made made => simp [made.1] at table
    | named found names kept key plain => simp [plain] at table
    | @handed c consumer kind found unkept active handed new =>
        have one : (s.node p).active = [consumer] := active
        exact ⟨handed ▸ rfl, fewer.trans (by simp [one])⟩

theorem ReadOnce.penalize (once : s.ReadOnce) (key : String) (source : NodeId)
    : (s.penalize key source).ReadOnce := by
  intro p set isSource table
  rw [sourceSet_penalize] at isSource
  rw [length_active_penalize]
  exact once p set isSource table

/-- The session is one that a run leads to, its registry goes by the job's sets that its sources
read, and hash tables of aggregates are read once.
-/
def Stocked (g : Graph) (first s : Session) : Prop :=
  ∃ followed, Reaches g first s followed ∧ s.JobKeyed ∧ s.ReadOnce

theorem Beginning.stocked (beginning : s.Beginning g)
    : Stocked g s s :=
  ⟨[], beginning.reaches, beginning.jobKeyed, beginning.readOnce⟩

theorem steady_stocked (g : Graph) (first : Session)
    : Steady fun _ s => Stocked g first s :=
  steady_of_kept (P := fun _ _ s => s.JobKeyed ∧ s.ReadOnce)
    (fun reaches ⟨keyed, once⟩ _ course pipeline whole =>
      ⟨keyed.commit reaches course, once.commit reaches course pipeline whole⟩)
    (fun ⟨keyed, once⟩ key source => ⟨keyed.penalize key source, once.penalize key source⟩)
    (fun ⟨keyed, once⟩ => ⟨keyed.prune, once⟩)

-----------------------------------------------------------------------------------------------
-- Increments
-----------------------------------------------------------------------------------------------

/-- What the stages of an increment read, drop and leave. -/
structure Supply (s next : Session) (increment : Increment) : Prop where
  reads
    : ∀ stage ∈ increment.stages,
        stage.source.isIntermediate = true →
          s.Reads stage.source
          ∨ ∃ set ∈ increment.intermediateSets, set.key = stage.source.key
  drops
    : ∀ stage ∈ increment.stages,
        ∀ key,
          stage.Drops key →
            next.hasConsumers key = false
            ∧ ∃ set, s.Reads set ∧ set.kind = .partitionedHash ∧ set.key = key
  leaves
    : ∀ set,
        next.Reads set → s.Reads set ∨ ∃ stage ∈ increment.stages, stage.Writes set.key

/-- A planned pipeline supplies its stages.
Witness: they start from the source's set, which is the only one that they drop; if it is dropped,
its last consumer is planned.
-/
theorem Stocked.commit (stocked : Stocked g first s)
    (done : s.Committed stats skip key source reached segment)
    : Supply s (s.commit key source reached segment)
        ⟨segment.stages, segment.intermediateSets⟩ := by
  obtain ⟨followed, reaches, keyed, once⟩ := stocked
  obtain ⟨init, last, set, inner, course, isSource, pipeline, rfl⟩ :=
    View.pipeline_of_analyze done.planned
  have isSource : (s.node source).sourceSet = some set := isSource
  obtain ⟨registered, live⟩ := done.live
  obtain ⟨own, here, named⟩ := keyed.entries key source registered
  obtain rfl := Option.some.inj (isSource.symm.trans here)
  have read (job : set.kind ≠ .user) : s.Reads set :=
    ⟨source, (named job).symm ▸ registered, live, isSource⟩
  have supplies := pipeline.supplies
  refine ⟨?_, ?_, ?_⟩
  · intro stage member job
    refine (supplies.reads stage member).imp_left fun starts => ?_
    obtain rfl : set = stage.source := Option.some.inj starts
    exact read (kind_ne_user job)
  · rintro stage member _ ⟨dropped, consumed, rfl⟩
    obtain ⟨rfl, table⟩ := (pipeline.drops rfl).1 stage member dropped consumed
    obtain ⟨kind, one⟩ := once source dropped isSource table
    have job : dropped.kind ≠ .user := by simp [kind]
    refine ⟨?_, dropped, read job, kind, rfl⟩
    rw [named job]
    exact not_hasConsumers_commit course one
  · intro kept reads
    rcases reads.of_commit course (reaches.has_last course) with before | ⟨made, new, same⟩
    · exact .inl before
    · exact .inr (same ▸ supplies.leaves last made new)

/-- Every increment supplies its stages, also if there are none. -/
theorem Stocked.supply {increment : Increment} (stocked : Stocked g first s)
    (planned : s.planIncrement stats = (.ok increment, next))
    : Supply s next increment ∧ Stocked g first next := by
  have steady := steady_stocked g first
  have ends := s.planIncrement_comesTo stats
  rw [planned] at ends
  have pruned := @Steady.prune _ steady .empty _ stocked
  refine ⟨?_, @Steady.comesTo _ steady _ _ _ .empty pruned ends⟩
  cases ends with
  | idle tries none =>
      exact ⟨by simp [Increment.empty], by simp [Increment.empty],
        fun set reads => .inl (reads.of_waits tries.waits)⟩
  | planned tries attempted =>
      have waits := tries.waits
      obtain ⟨key, source, reached, segment, done, rfl, rfl⟩ := committed_of_attempt attempted
      obtain ⟨reads, drops, leaves⟩ :=
        (@Steady.waits _ steady _ _ .empty stocked waits).commit done
      refine ⟨?_, ?_, ?_⟩
      · exact fun stage member job => (reads stage member job).imp_left (Reads.of_waits waits)
      · intro stage member key dropped
        obtain ⟨none, set, read, kind, same⟩ := drops stage member key dropped
        exact ⟨none, set, read.of_waits waits, kind, same⟩
      · exact fun set read => (leaves set read).imp_left (Reads.of_waits waits)

end DataflowPlan.Session
