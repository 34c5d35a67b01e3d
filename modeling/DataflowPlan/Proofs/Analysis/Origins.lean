import DataflowPlan.Proofs.Analysis.Deposits

/-! Where the sets come from that a pipeline declares: each of them from one node that the pipeline
comes to, and no two from the same node by the same name.
-/

namespace DataflowPlan

/-- A node at which a pipeline declares a set, and what is put behind the name of the node's output
to name it.
-/
structure Origin where
  node : NodeId
  suffix : String
deriving DecidableEq

namespace View

variable {v : View} {next : StageId} {draft : TupleSetDraft} {prev id : NodeId}
  {segment : Segment} {path : List NodeId} {origins : List Origin}

/-- The key of the set that comes from there. -/
def originKey (v : View) (origin : Origin) : String :=
  setKey v.jobId (v.outputOf origin.node ++ origin.suffix)

@[simp]
theorem key_jobSet (v : View) (id : NodeId) (suffix : String) (pageSize : Nat)
    : (v.jobSet id suffix pageSize).key = v.originKey ⟨id, suffix⟩ := rfl

/-- The sets that the segment declares come from these origins, one from each, which the pipeline
comes to. A set that goes by a node's output alone is what the node is read by from then on.
-/
structure Originates (v : View) (path : List NodeId) (segment : Segment) (origins : List Origin)
    : Prop where
  keys : segment.intermediateSets.map SetId.key = origins.map v.originKey
  made : ∀ origin ∈ origins, origin.node ∈ path ∧ v.Makes origin.node origin.suffix
  unique : origins.Nodup
  placed
    : ∀ origin ∈ origins,
        origin.suffix = "" →
          ∃ set,
            segment.newSource = some (origin.node, set) ∧ set.key = v.originKey origin

theorem Originates.none (declares : segment.intermediateSets = [])
    : v.Originates path segment [] :=
  ⟨by rw [declares]; rfl, by simp, .nil, by simp⟩

-----------------------------------------------------------------------------------------------
-- Endings
-----------------------------------------------------------------------------------------------

/-- A placement at the node declares nothing, or the set of the job's that goes by the output. -/
inductive PlacedAt (v : View) (id : NodeId) (place : Placement) : Prop
  | elsewhere (declared : place.declared = [])
  | here (makes : v.Makes id "") (read : (v.node id).hasConsumers = true)
    (key : place.sink.key = v.originKey ⟨id, ""⟩) (declared : place.declared = [place.sink])

theorem hasConsumers_of_gathered (read : v.Gathered id)
    : (v.node id).hasConsumers = true :=
  read.elim PhysicalNode.hasConsumers_of_shared fun waits =>
    PhysicalNode.hasConsumers_iff.mpr waits.2

theorem placedAt_of_placement {c : Computation} {place : Placement}
    (found : v.computation id = .ok c) (placed : v.placement id c = .ok place)
    (read : v.Gathered id)
    : v.PlacedAt id place := by
  rcases placement_eq_ok placed with ⟨-, -, none, -⟩ | ⟨unkept, sink, declared, -⟩
  · exact .elsewhere none
  · exact .here (.gathered found unkept read) (hasConsumers_of_gathered read)
      (by rw [sink, key_jobSet]) declared

theorem placedAt_of_aggregatePlacement {c : Computation} {place : Placement} {materialized : Bool}
    (found : v.computation id = .ok c)
    (placed : v.aggregatePlacement id c = .ok (place, materialized))
    : v.PlacedAt id place := by
  cases aggregatePlacement_eq_ok placed with
  | unread none names => exact .elsewhere rfl
  | kept one keeps names => exact .elsewhere rfl
  | handed one unkept => exact .elsewhere rfl
  | shared several own => exact placedAt_of_placement found own (.inl several)

theorem placedAt_of_partitionPlacement {c : Computation} {place : Placement}
    (kind : (v.node id).kind = .partition) (found : v.computation id = .ok c)
    (placed : v.partitionPlacement id c = .ok place)
    : v.PlacedAt id place := by
  rcases partitionPlacement_eq_ok placed with ⟨-, _, -, rfl⟩ | ⟨waiting, own, kept, rfl⟩
  · exact .elsewhere rfl
  · rcases placement_eq_ok kept with ⟨-, -, none, -⟩ | ⟨unkept, sink, declared, -⟩
    · exact .elsewhere none
    · have same : own.sink.withPageSize v.config.pageSize = own.sink := by rw [sink]; rfl
      exact .here (.gathered found unkept (.inr ⟨kind, waiting⟩))
        (PhysicalNode.hasConsumers_iff.mpr waiting) (by rw [same, sink, key_jobSet])
        (by rw [declared, same])

/-- A pipeline that ends in one stage declares at most the place of its output. -/
theorem PlacedAt.originates {place : Placement} (placed : v.PlacedAt id place)
    (sets : segment.intermediateSets = place.declared)
    (source
      : (v.node id).hasConsumers = true → segment.newSource = some (id, place.sink))
    : ∃ origins,
        v.Originates [id] segment origins ∧ ∀ origin ∈ origins, origin.suffix = "" := by
  cases placed with
  | elsewhere declared => exact ⟨[], .none (sets.trans declared), by simp⟩
  | here makes read key declared =>
      refine ⟨[⟨id, ""⟩], ⟨?_, ?_, List.nodup_singleton _, ?_⟩, by simp⟩
      · simp [sets, declared, key]
      · intro origin member
        obtain rfl := List.mem_singleton.mp member
        exact ⟨List.mem_singleton_self id, makes⟩
      · intro origin member _
        obtain rfl := List.mem_singleton.mp member
        exact ⟨place.sink, source read, key⟩

theorem materialize_originates (shared : 2 ≤ (v.node id).active.length)
    (made : v.materialize next draft prev id = .ok segment)
    : ∃ origins,
        v.Originates [id] segment origins ∧ ∀ origin ∈ origins, origin.suffix = "" := by
  obtain ⟨c, place, stage, found, placed, -, rfl⟩ := materialize_eq_ok made
  exact (placedAt_of_placement found placed (.inl shared)).originates rfl fun _ => rfl

theorem partition_originates (kind : (v.node id).kind = .partition)
    (made : v.partition next draft prev id = .ok segment)
    : ∃ origins, v.Originates [id] segment origins := by
  obtain ⟨c, place, stage, found, placed, -, rfl⟩ := partition_eq_ok made
  have here := placedAt_of_partitionPlacement kind found placed
  refine (here.originates rfl ?_).imp fun origins ends => ends.1
  exact fun read => if_pos read

/-- An aggregate declares its place, the data that is shuffled, and what that is combined in. -/
theorem aggregate_originates (kind : (v.node id).kind = .aggregation)
    (made : v.aggregate next draft prev id = .ok segment)
    : ∃ origins, v.Originates [id] segment origins := by
  obtain ⟨c, place, materialized, shuffle, merge, found, placed, -, -, rfl⟩ :=
    aggregate_eq_ok made
  let combined : List Origin := if c.usesCombiner then [⟨id, "_combinerData"⟩] else []
  have combiner : ∀ origin ∈ combined, origin = ⟨id, "_combinerData"⟩ ∧ c.usesCombiner = true := by
    intro origin member
    by_cases uses : c.usesCombiner = true <;> simp_all [combined]
  have behind : v.Originates [id]
      ⟨[], v.jobSet id "_aggregationData" v.config.shufflePageSize
        :: (if c.usesCombiner then
              some (v.jobSet id "_combinerData" v.config.shufflePageSize)
            else none).toList, none, []⟩ (⟨id, "_aggregationData"⟩ :: combined) := by
    refine ⟨?_, ?_, ?_, ?_⟩
    · by_cases uses : c.usesCombiner = true <;> simp [combined, uses]
    · intro origin member
      rcases List.mem_cons.mp member with rfl | later
      · exact ⟨List.mem_singleton_self id, .shuffled kind⟩
      · obtain ⟨rfl, uses⟩ := combiner origin later
        exact ⟨List.mem_singleton_self id, .combined kind found uses⟩
    · refine List.nodup_cons.mpr ⟨fun again => ?_, ?_⟩
      · simpa using (combiner _ again).1
      · by_cases uses : c.usesCombiner = true <;> simp [combined, uses]
    · intro origin member plain
      rcases List.mem_cons.mp member with rfl | later
      · simp at plain
      · obtain ⟨rfl, -⟩ := combiner origin later
        simp at plain
  cases placedAt_of_aggregatePlacement found placed with
  | elsewhere declared =>
      refine ⟨_, ?_, behind.made, behind.unique, ?_⟩
      · simpa [declared] using behind.keys
      · intro origin member plain
        obtain ⟨_, none, -⟩ := behind.placed origin member plain
        simp at none
  | here makes read key declared =>
      refine ⟨⟨id, ""⟩ :: ⟨id, "_aggregationData"⟩ :: combined, ?_, ?_, ?_, ?_⟩
      · simpa [declared, key] using behind.keys
      · intro origin member
        rcases List.mem_cons.mp member with rfl | later
        · exact ⟨List.mem_singleton_self id, makes⟩
        · exact behind.made origin later
      · refine List.nodup_cons.mpr ⟨fun again => ?_, behind.unique⟩
        obtain ⟨_, none, -⟩ := behind.placed _ again rfl
        simp at none
      · intro origin member plain
        rcases List.mem_cons.mp member with rfl | later
        · exact ⟨place.sink, if_pos read, key⟩
        · obtain ⟨_, none, -⟩ := behind.placed origin later plain
          simp at none

theorem joinBuild_originates (kind : (v.node id).kind = .join .notStarted)
    (made : v.joinBuild next draft prev id = .ok segment)
    : ∃ origins, v.Originates [id] segment origins := by
  obtain ⟨c, stage, -, -, rfl⟩ := joinBuild_eq_ok made
  refine ⟨[⟨id, buildSuffix (v.strategyFor draft)⟩], rfl, ?_, List.nodup_singleton _, ?_⟩
  · intro origin member
    obtain rfl := List.mem_singleton.mp member
    exact ⟨List.mem_singleton_self id, .built kind⟩
  · intro origin member plain
    obtain rfl := List.mem_singleton.mp member
    cases strategy : v.strategyFor draft <;> simp [strategy, buildSuffix] at plain

theorem Ends.originates (ending : v.Ends next draft prev id segment)
    : ∃ origins, v.Originates [id] segment origins := by
  cases ending with
  | output kind unread made =>
      obtain ⟨c, sink, stage, -, -, -, rfl⟩ := output_eq_ok made
      exact ⟨[], .none rfl⟩
  | materialize kind shared made =>
      obtain ⟨origins, originates, -⟩ := materialize_originates shared made
      exact ⟨origins, originates⟩
  | aggregate kind made => exact aggregate_originates kind made
  | partition kind made => exact partition_originates kind made
  | build kind read accepted made => exact joinBuild_originates kind made

-----------------------------------------------------------------------------------------------
-- Pipelines
-----------------------------------------------------------------------------------------------

/-- Crossing a join adds at most the set that the probing side is split into, which is the only one
from there but for the place of the join's output.
-/
theorem Originates.across {strategy : JoinStrategy} {hashSet : String} {c : Crossing}
    (originates : v.Originates path segment origins) (onPath : id ∈ path)
    (started : (v.node id).IsStarted strategy hashSet)
    (crosses : v.Crosses next draft prev id hashSet strategy c)
    (fresh : ∀ origin ∈ origins, origin.node = id → origin.suffix = "")
    : ∃ more, v.Originates path (segment.across c) more := by
  cases crosses with
  | broadcast => exact ⟨origins, originates⟩
  | @split c stage found finished sink splits =>
      refine ⟨⟨id, "_probeRepartitionData"⟩ :: origins, ?_, ?_, ?_, ?_⟩
      · simpa [Segment.across, sink] using originates.keys
      · intro origin member
        rcases List.mem_cons.mp member with rfl | before
        · exact ⟨onPath, .split started⟩
        · exact originates.made origin before
      · refine List.nodup_cons.mpr ⟨fun again => ?_, originates.unique⟩
        simpa using fresh _ again rfl
      · intro origin member plain
        rcases List.mem_cons.mp member with rfl | before
        · simp at plain
        · exact originates.placed origin before plain

theorem Originates.mono {more : List NodeId} (originates : v.Originates path segment origins)
    (nodes : path ⊆ more)
    : v.Originates more segment origins :=
  ⟨originates.keys, fun origin member => (originates.made origin member).imp_left (nodes ·),
    originates.unique, originates.placed⟩

/-- Along a path that comes to no node twice the sets have different origins.
Witness: induction on the pipeline.
-/
theorem Pipeline.originates (pipeline : v.Pipeline next draft prev path segment)
    (once : path.Nodup)
    : ∃ origins, v.Originates path segment origins := by
  induction pipeline with
  | ends ending => exact ending.originates
  | @pass _ _ _ id _ _ _ kind active rest ih =>
      obtain ⟨-, once⟩ := List.nodup_cons.mp once
      obtain ⟨origins, originates⟩ := ih once
      have wider := originates.mono (List.subset_cons_self id _)
      exact ⟨origins, wider.keys, wider.made, wider.unique, wider.placed⟩
  | cross started crossed active rest ih =>
      obtain ⟨apart, once⟩ := List.nodup_cons.mp once
      obtain ⟨origins, originates⟩ := ih once
      refine (originates.mono (List.subset_cons_self _ _)).across List.mem_cons_self started
        (crosses_of_crossing crossed) fun origin member same => ?_
      exact absurd (same ▸ (originates.made origin member).1) apart
  | gather started crossed shared made =>
      obtain ⟨origins, originates, plain⟩ := materialize_originates shared made
      exact originates.across List.mem_cons_self started (crosses_of_crossing crossed)
        fun origin member _ => plain origin member

end View

end DataflowPlan
