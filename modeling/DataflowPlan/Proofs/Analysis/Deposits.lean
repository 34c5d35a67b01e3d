import DataflowPlan.Proofs.Analysis.JoinStages

/-! The sets of one pipeline: which of them it declares, and what its stages write. Each goes by the
name of a node that the pipeline comes to, or is the set that the node's computation names.
-/

namespace DataflowPlan.View

variable {v : View} {next : StageId} {draft : TupleSetDraft} {prev id q : NodeId}
  {segment : Segment} {path : List NodeId}

-----------------------------------------------------------------------------------------------
-- Names
-----------------------------------------------------------------------------------------------

/-- What ends at the node is written for its consumers to read: there are several, or the node is a
partition.
-/
def Gathered (v : View) (q : NodeId) : Prop :=
  2 ≤ (v.node q).active.length ∨ (v.node q).kind = .partition ∧ (v.node q).active ≠ []

/-- What is put behind the name of the node's output to name the sets of the job's that a pipeline
declares there.
-/
inductive Makes (v : View) (q : NodeId) : String → Prop
  | gathered {c} (found : v.computation q = .ok c) (unkept : c.materializeOutput = false)
    (read : v.Gathered q)
    : v.Makes q ""
  | shuffled (kind : (v.node q).kind = .aggregation) : v.Makes q "_aggregationData"
  | combined {c} (kind : (v.node q).kind = .aggregation) (found : v.computation q = .ok c)
    (uses : c.usesCombiner = true)
    : v.Makes q "_combinerData"
  | built {strategy} (kind : (v.node q).kind = .join .notStarted)
    : v.Makes q (buildSuffix strategy)
  | split {hashSet} (started : (v.node q).IsStarted .hashPartitioned hashSet)
    : v.Makes q "_probeRepartitionData"

/-- The set has the name of one that a pipeline declares at the node. -/
def MadeAt (v : View) (q : NodeId) (set : SetId) : Prop :=
  set.isAggregationResult = false
  ∧ ∃ suffix, v.Makes q suffix ∧ set.key = setKey v.jobId (v.outputOf q ++ suffix)

/-- What a pipeline writes at the node: a set that it declares, the set that the computation names,
or the hash table of an aggregate for its only consumer.
-/
inductive Deposit (v : View) (q : NodeId) (segment : Segment) (set : SetId) : Prop
  | made (made : v.MadeAt q set)
    (declared : ∃ other ∈ segment.intermediateSets, other.key = set.key)
  | named {c own} (found : v.computation q = .ok c) (names : c.set? = some own)
    (kept
      : c.materializeOutput = true
        ∨ (v.node q).active = [] ∧ ∀ state, (v.node q).kind ≠ .join state)
    (key : set.key = own.key) (plain : set.isAggregationResult = false)
  | handed {c consumer} (kind : (v.node q).kind = .aggregation) (found : v.computation q = .ok c)
    (unkept : c.materializeOutput = false) (active : (v.node q).active = [consumer])
    (table : set = .aggregationResult v.jobId (v.outputOf q ++ "_aggregationResult"))
    (new : segment.newSource = some (q, set))

/-- What a pipeline declares, what its stages write, and what later ones can start from. -/
structure Deposits (v : View) (path : List NodeId) (segment : Segment) : Prop where
  declared : ∀ set ∈ segment.intermediateSets, ∃ q ∈ path, v.MadeAt q set
  sinks
    : ∀ stage ∈ segment.stages,
        ∀ set, stage.sink? = some set → ∃ q ∈ path, v.Deposit q segment set
  source
    : ∀ q set,
        segment.newSource = some (q, set) →
          q ∈ path
          ∧ v.Deposit q segment set
          ∧ (set.isAggregationResult = true → ∃ stage ∈ segment.stages, stage.sink? = some set)

theorem madeAt_jobSet {suffix : String} (makes : v.Makes q suffix) (pageSize : Nat)
    : v.MadeAt q (v.jobSet q suffix pageSize) :=
  ⟨rfl, suffix, makes, rfl⟩

theorem Deposit.mono {more : Segment} {set : SetId} (deposit : v.Deposit q segment set)
    (sets : segment.intermediateSets ⊆ more.intermediateSets)
    (same : more.newSource = segment.newSource)
    : v.Deposit q more set := by
  cases deposit with
  | made made declared =>
      obtain ⟨other, member, key⟩ := declared
      exact .made made ⟨other, sets member, key⟩
  | named found names kept key plain => exact .named found names kept key plain
  | handed kind found unkept active table new =>
      exact .handed kind found unkept active table (same.trans new)

-----------------------------------------------------------------------------------------------
-- Endings
-----------------------------------------------------------------------------------------------

/-- The set that an unread computation names. -/
theorem deposit_of_unread {c : Computation} {sink : SetId} (found : v.computation q = .ok c)
    (names : c.sinkSet = .ok sink) (unread : (v.node q).active = [])
    (step : ∀ state, (v.node q).kind ≠ .join state)
    : v.Deposit q segment sink := by
  have own := Computation.set?_of_sinkSet names
  exact .named found own (.inr ⟨unread, step⟩) rfl (Computation.plain_of_set? own)

/-- A placement declares at most the set of the job's that it places the output in. -/
theorem declared_of_placement {c : Computation} {place : Placement}
    (found : v.computation q = .ok c) (placed : v.placement q c = .ok place)
    (read : v.Gathered q)
    : ∀ set ∈ place.declared, v.MadeAt q set := by
  intro set member
  rcases placement_eq_ok placed with ⟨-, -, none, -⟩ | ⟨unkept, sink, declared, -⟩
  · simp [none] at member
  · rw [declared, List.mem_singleton] at member
    rw [member, sink]
    exact madeAt_jobSet (.gathered found unkept read) _

theorem deposit_of_placement {c : Computation} {place : Placement} {set : SetId}
    (found : v.computation q = .ok c) (placed : v.placement q c = .ok place)
    (read : v.Gathered q) (key : set.key = place.sink.key)
    (plain : set.isAggregationResult = place.sink.isAggregationResult)
    (declares : place.declared ⊆ segment.intermediateSets)
    : v.Deposit q segment set := by
  rcases placement_eq_ok placed with ⟨kept, names, -, -⟩ | ⟨unkept, sink, declared, -⟩
  · have own := Computation.set?_of_sinkSet names
    exact .named found own (.inl kept) key (plain.trans (Computation.plain_of_set? own))
  · have listed : place.sink ∈ segment.intermediateSets := declares (by simp [declared])
    refine .made ⟨plain.trans (sink ▸ rfl), "", .gathered found unkept read, ?_⟩
      ⟨place.sink, listed, key.symm⟩
    rw [key, sink]
    rfl

theorem output_deposits (kind : (v.node id).kind = .pipeline)
    (unread : (v.node id).active = []) (made : v.output next draft prev id = .ok segment)
    : v.Deposits [id] segment := by
  obtain ⟨c, sink, stage, found, names, finished, rfl⟩ := output_eq_ok made
  refine ⟨by simp, ?_, by simp⟩
  intro other member set written
  obtain rfl := List.mem_singleton.mp member
  obtain rfl : sink = set := (Option.some.inj finished.sink).trans (Option.some.inj written)
  exact ⟨id, by simp, deposit_of_unread found names unread (by simp [kind])⟩

theorem materialize_deposits (shared : 2 ≤ (v.node id).active.length)
    (made : v.materialize next draft prev id = .ok segment)
    : v.Deposits [id] segment := by
  obtain ⟨c, place, stage, found, placed, finished, rfl⟩ := materialize_eq_ok made
  have read : v.Gathered id := .inl shared
  refine ⟨?_, ?_, ?_⟩
  · exact fun set member => ⟨id, by simp, declared_of_placement found placed read set member⟩
  · intro other member set written
    obtain rfl := List.mem_singleton.mp member
    obtain rfl : place.sink = set :=
      (Option.some.inj finished.sink).trans (Option.some.inj written)
    exact ⟨id, by simp, deposit_of_placement found placed read rfl rfl (List.Subset.refl _)⟩
  · rintro q set ⟨⟩
    refine ⟨by simp, deposit_of_placement found placed read rfl rfl (List.Subset.refl _), ?_⟩
    intro _
    exact ⟨.tupleSet stage, by simp, finished.sink.symm⟩

theorem joinBuild_deposits (kind : (v.node id).kind = .join .notStarted)
    (made : v.joinBuild next draft prev id = .ok segment)
    : v.Deposits [id] segment := by
  obtain ⟨c, stage, -, finished, rfl⟩ := joinBuild_eq_ok made
  have sink : stage.sink
      = v.jobSet id (buildSuffix (v.strategyFor draft)) v.config.broadcastPageSize := by
    have sink := finished.sink
    unfold buildDraft at sink
    cases strategy : v.strategyFor draft with
    | hashPartitioned | broadcast =>
        simp only [strategy] at sink
        exact (Option.some.inj sink).symm
  have data : v.MadeAt id stage.sink := sink ▸ madeAt_jobSet (.built kind) _
  refine ⟨?_, ?_, by simp [buildSegment]⟩
  · intro set member
    rw [List.mem_singleton.mp member, ← sink]
    exact ⟨id, by simp, data⟩
  · intro other member set written
    rcases List.mem_pair.mp member with rfl | rfl
    · obtain rfl := Option.some.inj written
      exact ⟨id, by simp, .made data ⟨_, List.mem_singleton_self _, by rw [sink]⟩⟩
    · unfold buildStage at written
      cases strategy : v.strategyFor draft <;> simp [strategy, Stage.sink?] at written

theorem partition_deposits (kind : (v.node id).kind = .partition)
    (made : v.partition next draft prev id = .ok segment)
    : v.Deposits [id] segment := by
  obtain ⟨c, place, stage, found, placed, finished, rfl⟩ := partition_eq_ok made
  have deposit : (∀ set ∈ place.declared, v.MadeAt id set)
      ∧ ∀ more : Segment,
          place.declared ⊆ more.intermediateSets → v.Deposit id more place.sink := by
    rcases partitionPlacement_eq_ok placed with
      ⟨unread, sink, names, rfl⟩ | ⟨waits, own, kept, rfl⟩
    · exact ⟨by simp, fun more _ => deposit_of_unread found names unread (by simp [kind])⟩
    · have read : v.Gathered id := .inr ⟨kind, waits⟩
      have declared := declared_of_placement found kept read
      exact ⟨declared, fun more sets => deposit_of_placement found kept read rfl rfl sets⟩
  refine ⟨fun set member => ⟨id, by simp, deposit.1 set member⟩, ?_, ?_⟩
  · intro other member set written
    obtain rfl := List.mem_singleton.mp member
    obtain rfl : place.sink = set :=
      (Option.some.inj finished.sink).trans (Option.some.inj written)
    exact ⟨id, by simp, deposit.2 _ (List.Subset.refl _)⟩
  · intro q set new
    dsimp only at new
    split at new
    · obtain ⟨rfl, rfl⟩ := Prod.mk.inj (Option.some.inj new)
      refine ⟨by simp, deposit.2 _ (List.Subset.refl _), fun _ => ?_⟩
      exact ⟨.tupleSet stage, by simp, finished.sink.symm⟩
    · simp at new

/-- The place of an aggregate holds what it declares, and is where the merging leaves it. -/
theorem deposit_of_aggregatePlacement (kind : (v.node id).kind = .aggregation) {c : Computation}
    {place : Placement} {materialized : Bool} (found : v.computation id = .ok c)
    (placed : v.aggregatePlacement id c = .ok (place, materialized))
    : (∀ set ∈ place.declared, v.MadeAt id set)
      ∧ ∀ more : Segment,
          place.declared ⊆ more.intermediateSets →
            (((v.node id).hasConsumers = true → more.newSource = some (id, place.sink))) →
              v.Deposit id more place.sink := by
  cases aggregatePlacement_eq_ok placed with
  | unread none names =>
      exact ⟨by simp, fun more _ _ => deposit_of_unread found names none (by simp [kind])⟩
  | kept one keeps names =>
      have own := Computation.set?_of_sinkSet names
      have plain := Computation.plain_of_set? own
      exact ⟨by simp, fun more _ _ => .named found own (.inl keeps) rfl plain⟩
  | handed one unkept =>
      refine ⟨by simp, fun more _ new => .handed kind found unkept one rfl (new ?_)⟩
      exact PhysicalNode.hasConsumers_iff.mpr (by simp [one])
  | shared several own =>
      exact ⟨declared_of_placement found own (.inl several), fun more declares _ =>
        deposit_of_placement found own (.inl several) rfl rfl declares⟩

theorem aggregate_deposits (kind : (v.node id).kind = .aggregation)
    (made : v.aggregate next draft prev id = .ok segment)
    : v.Deposits [id] segment := by
  obtain ⟨c, place, materialized, shuffle, merge, found, placed, finished, rfl, rfl⟩ :=
    aggregate_eq_ok made
  obtain ⟨declared, deposit⟩ := deposit_of_aggregatePlacement kind found placed
  have shuffled := madeAt_jobSet (.shuffled kind) v.config.shufflePageSize
  have sink : v.jobSet id "_aggregationData" v.config.shufflePageSize = shuffle.sink :=
    Option.some.inj finished.sink
  refine ⟨?_, ?_, ?_⟩
  · intro set member
    refine ⟨id, by simp, ?_⟩
    simp only [List.mem_append, List.mem_singleton] at member
    rcases member with (placing | rfl) | combiner
    · exact declared set placing
    · exact shuffled
    · split at combiner
      · next uses =>
          rw [List.mem_singleton.mp combiner]
          exact madeAt_jobSet (.combined kind found uses) _
      · simp at combiner
  · intro other member set written
    refine ⟨id, by simp, ?_⟩
    rcases List.mem_pair.mp member with rfl | rfl
    · obtain rfl : shuffle.sink = set := Option.some.inj written
      rw [← sink]
      exact .made shuffled ⟨_, by simp, rfl⟩
    · obtain rfl : place.sink = set := Option.some.inj written
      refine deposit _ ?_ fun read => if_pos read
      intro set member
      simp [member]
  · intro q set new
    dsimp only at new
    split at new
    · next read =>
        obtain ⟨rfl, rfl⟩ := Prod.mk.inj (Option.some.inj new)
        refine ⟨by simp, ?_, fun _ => ⟨_, List.mem_cons_of_mem _ (List.mem_singleton_self _), rfl⟩⟩
        refine deposit _ ?_ fun read => if_pos read
        intro set member
        simp [member]
    · simp at new

theorem Ends.deposits (ending : v.Ends next draft prev id segment)
    : v.Deposits [id] segment := by
  cases ending with
  | output kind unread made => exact output_deposits kind unread made
  | materialize kind shared made => exact materialize_deposits shared made
  | aggregate kind made => exact aggregate_deposits kind made
  | partition kind made => exact partition_deposits kind made
  | build kind read accepted made => exact joinBuild_deposits kind made

-----------------------------------------------------------------------------------------------
-- Pipelines
-----------------------------------------------------------------------------------------------

theorem Deposits.mono {more : List NodeId} (deposits : v.Deposits path segment)
    (nodes : path ⊆ more)
    : v.Deposits more segment := by
  refine ⟨?_, ?_, ?_⟩
  · intro set member
    obtain ⟨q, onPath, made⟩ := deposits.declared set member
    exact ⟨q, nodes onPath, made⟩
  · intro stage member set written
    obtain ⟨q, onPath, deposit⟩ := deposits.sinks stage member set written
    exact ⟨q, nodes onPath, deposit⟩
  · intro q set new
    obtain ⟨onPath, rest⟩ := deposits.source q set new
    exact ⟨nodes onPath, rest⟩

theorem Deposits.through (deposits : v.Deposits path segment) (id : NodeId)
    : v.Deposits path (segment.through id) := by
  obtain ⟨declared, sinks, source⟩ := deposits
  refine ⟨declared, ?_, ?_⟩
  · intro stage member set written
    obtain ⟨q, onPath, deposit⟩ := sinks stage member set written
    exact ⟨q, onPath, deposit.mono (List.Subset.refl _) rfl⟩
  · intro q set new
    obtain ⟨onPath, deposit, table⟩ := source q set new
    exact ⟨onPath, deposit.mono (List.Subset.refl _) rfl, table⟩

/-- Crossing a join adds at most the set that the probing side is split into. -/
theorem Deposits.across {strategy : JoinStrategy} {hashSet : String} {c : Crossing}
    (deposits : v.Deposits path segment) (onPath : id ∈ path)
    (started : (v.node id).IsStarted strategy hashSet)
    (crosses : v.Crosses next draft prev id hashSet strategy c)
    : v.Deposits path (segment.across c) := by
  cases crosses with
  | broadcast => exact deposits
  | @split c stage found finished sink splits =>
      have data : v.MadeAt id stage.sink := sink ▸ madeAt_jobSet (.split started) _
      have sets : segment.intermediateSets ⊆ stage.sink :: segment.intermediateSets :=
        List.subset_cons_self _ _
      refine ⟨?_, ?_, ?_⟩
      · intro set member
        rcases List.mem_cons.mp member with rfl | before
        · exact ⟨id, onPath, data⟩
        · exact deposits.declared set before
      · intro other member set written
        rcases List.mem_cons.mp member with rfl | later
        · obtain rfl := Option.some.inj written
          exact ⟨id, onPath, .made data ⟨stage.sink, List.mem_cons_self, rfl⟩⟩
        · obtain ⟨q, there, deposit⟩ := deposits.sinks other later set written
          exact ⟨q, there, deposit.mono sets rfl⟩
      · intro q set new
        obtain ⟨there, deposit, table⟩ := deposits.source q set new
        refine ⟨there, deposit.mono sets rfl, fun result => ?_⟩
        obtain ⟨other, member, written⟩ := table result
        exact ⟨other, List.mem_cons_of_mem _ member, written⟩

/-- All sets of a pipeline go by the nodes that it comes to.
Witness: induction on the pipeline.
-/
theorem Pipeline.deposits (pipeline : v.Pipeline next draft prev path segment)
    : v.Deposits path segment := by
  induction pipeline with
  | ends ending => exact ending.deposits
  | pass kind active rest ih => exact (ih.mono (List.subset_cons_self _ _)).through _
  | cross started crossed active rest ih =>
      exact (ih.mono (List.subset_cons_self _ _)).across List.mem_cons_self started
        (crosses_of_crossing crossed)
  | gather started crossed shared made =>
      exact (materialize_deposits shared made).across List.mem_cons_self started
        (crosses_of_crossing crossed)

end DataflowPlan.View
