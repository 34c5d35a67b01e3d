import DataflowPlan.Proofs.Analysis.Relay

/-! Hash tables of aggregates, from the pipeline that leaves one in memory to the pipeline that
picks it up. Only the last stage of a pipeline can leave one, and only the first stage reads one.
-/

namespace DataflowPlan

/-- The hash table that an aggregate leaves to its only consumer. -/
def aggregateTable (jobId output : String) : SetId :=
  .aggregationResult jobId (output ++ "_aggregationResult")

theorem aggregateTable_inj {jobId output other : String}
    (same : aggregateTable jobId output = aggregateTable jobId other)
    : output = other :=
  (String.append_left_inj _).mp (congrArg SetId.name same)

/-- The stages that write the set. -/
def writers (set : SetId) (stages : List Stage) : List Stage :=
  stages.filter fun stage => stage.sink? == some set

/-- The stages that read the set. -/
def readers (set : SetId) (stages : List Stage) : List Stage :=
  stages.filter fun stage => stage.source == set

theorem mem_writers_iff {set : SetId} {stages : List Stage} {stage : Stage}
    : stage ∈ writers set stages ↔ stage ∈ stages ∧ stage.sink? = some set := by
  simp [writers]

theorem mem_readers_iff {set : SetId} {stages : List Stage} {stage : Stage}
    : stage ∈ readers set stages ↔ stage ∈ stages ∧ stage.source = set := by
  simp [readers]

@[simp]
theorem writers_append (set : SetId) (stages more : List Stage)
    : writers set (stages ++ more) = writers set stages ++ writers set more :=
  List.filter_append ..

@[simp]
theorem readers_append (set : SetId) (stages more : List Stage)
    : readers set (stages ++ more) = readers set stages ++ readers set more :=
  List.filter_append ..

/-- The stage takes the partitions of its input as they are, and drops them, exactly if that is the
hash table of an aggregate. What it combines into is none.
-/
structure TupleSetStage.Marked (s : TupleSetStage) : Prop where
  drops : s.needRemoveInput = s.source.isAggregationResult
  partitioned : s.inputAggHashOut = s.source.isAggregationResult
  combines : ∀ set, s.combiner = some set → set.isAggregationResult = false

namespace View

variable {v : View} {next : StageId} {draft done : TupleSetDraft} {prev id : NodeId}
  {segment : Segment} {path : List NodeId} {c : Computation} {place : Placement}

/-- The merging leaves its hash table to the only consumer of the node. -/
structure LeavesTable (v : View) (segment : Segment) (q : NodeId) (merge : AggregationStage)
    : Prop where
  kind : (v.node q).kind = .aggregation
  kept : merge.materialize = false
  table : merge.sink = aggregateTable v.jobId (v.outputOf q)
  new : segment.newSource = some (q, merge.sink)

/-- Where hash tables of aggregates can be among the stages of a segment: written by none but the
last one, which merges an aggregate and does not materialize it.
-/
structure HandsOver (v : View) (segment : Segment) : Prop where
  marked : ∀ stage, .tupleSet stage ∈ segment.stages → stage.Marked
  early
    : ∀ stage ∈ segment.stages.dropLast,
        ∀ set, stage.sink? = some set → set.isAggregationResult = false
  final
    : ∀ stage set,
        segment.stages.getLast? = some stage →
          stage.sink? = some set →
            set.isAggregationResult = true →
              ∃ q merge, stage = .aggregation merge ∧ v.LeavesTable segment q merge

-----------------------------------------------------------------------------------------------
-- Endings
-----------------------------------------------------------------------------------------------

theorem marked_of_finished {stage : TupleSetStage} (finished : done.Finished stage)
    (combines : ∀ set, done.combiner = some set → set.isAggregationResult = false)
    : stage.Marked :=
  ⟨finished.needRemoveInput, finished.inputAggHashOut,
    fun set combiner => combines set (finished.combiner.symm.trans combiner)⟩

/-- A pipeline that combines nothing on its way has no combiner when it ends. -/
theorem marked_of_plain {stage : TupleSetStage} (finished : done.Finished stage)
    (plain : done.combiner = none)
    : stage.Marked :=
  marked_of_finished finished (by simp [plain])

/-- What a computation keeps, or is redirected to, is no hash table. -/
theorem plain_of_placement (placed : v.placement id c = .ok place)
    : place.sink.isAggregationResult = false := by
  rcases placement_eq_ok placed with ⟨-, names, -⟩ | ⟨-, sink, -⟩
  · exact Computation.plain_of_set? (Computation.set?_of_sinkSet names)
  · rw [sink]
    rfl

theorem plain_of_partitionPlacement (placed : v.partitionPlacement id c = .ok place)
    : place.sink.isAggregationResult = false := by
  rcases partitionPlacement_eq_ok placed with ⟨-, _, names, rfl⟩ | ⟨-, own, kept, rfl⟩
  · exact Computation.plain_of_set? (Computation.set?_of_sinkSet names)
  · have plain : own.sink.isAggregationResult = false := plain_of_placement kept
    exact plain

/-- An aggregate is materialized, or it leaves its hash table to one consumer. -/
theorem aggregatePlacement_cases {materialized : Bool}
    (placed : v.aggregatePlacement id c = .ok (place, materialized))
    : place.sink.isAggregationResult = false
      ∨ place.sink = aggregateTable v.jobId (v.outputOf id)
        ∧ materialized = false
        ∧ (v.node id).hasConsumers = true := by
  cases aggregatePlacement_eq_ok placed with
  | unread none names =>
      exact .inl (Computation.plain_of_set? (Computation.set?_of_sinkSet names))
  | kept one keeps names =>
      exact .inl (Computation.plain_of_set? (Computation.set?_of_sinkSet names))
  | handed one unkept =>
      exact .inr ⟨rfl, rfl, PhysicalNode.hasConsumers_iff.mpr (by simp [one])⟩
  | shared several own => exact .inl (plain_of_placement own)

/-- A segment of one stage, which writes no hash table. -/
theorem handsOver_one {stage : TupleSetStage} {sets : List SetId}
    {newSource : Option (NodeId × SetId)} {changes : List Change} (marked : stage.Marked)
    (plain : stage.sink.isAggregationResult = false)
    : v.HandsOver ⟨[.tupleSet stage], sets, newSource, changes⟩ := by
  refine ⟨?_, by simp, ?_⟩
  · intro other member
    obtain rfl := Stage.tupleSet.inj (List.mem_singleton.mp member)
    exact marked
  · rintro _ set ⟨⟩ written table
    obtain rfl := Option.some.inj written
    simp [plain] at table

theorem output_handsOver (made : v.output next draft prev id = .ok segment)
    (plain : draft.combiner = none)
    : v.HandsOver segment := by
  obtain ⟨c, sink, stage, -, names, finished, rfl⟩ := output_eq_ok made
  refine handsOver_one (marked_of_plain finished plain) ?_
  obtain rfl : sink = stage.sink := Option.some.inj finished.sink
  exact Computation.plain_of_set? (Computation.set?_of_sinkSet names)

theorem materialize_handsOver (made : v.materialize next draft prev id = .ok segment)
    (plain : draft.combiner = none)
    : v.HandsOver segment := by
  obtain ⟨c, place, stage, -, placed, finished, rfl⟩ := materialize_eq_ok made
  refine handsOver_one (marked_of_plain finished plain) ?_
  rw [← show place.sink = stage.sink from Option.some.inj finished.sink]
  exact plain_of_placement placed

theorem partition_handsOver (made : v.partition next draft prev id = .ok segment)
    (plain : draft.combiner = none)
    : v.HandsOver segment := by
  obtain ⟨c, place, stage, -, placed, finished, rfl⟩ := partition_eq_ok made
  refine handsOver_one (marked_of_plain finished plain) ?_
  rw [← show place.sink = stage.sink from Option.some.inj finished.sink]
  exact plain_of_partitionPlacement placed

/-- The shuffled and the combined data of an aggregate are sets of the job's; what they are merged
into is a hash table only if it is not materialized.
-/
theorem aggregate_handsOver (kind : (v.node id).kind = .aggregation)
    (made : v.aggregate next draft prev id = .ok segment)
    : v.HandsOver segment := by
  obtain ⟨c, place, materialized, shuffle, merge, -, placed, finished, rfl, rfl⟩ :=
    aggregate_eq_ok made
  refine ⟨?_, ?_, ?_⟩
  · intro stage member
    have here : stage = shuffle := by simpa using member
    subst here
    refine marked_of_finished finished fun set combiner => ?_
    dsimp only at combiner
    split at combiner
    · obtain rfl := Option.some.inj combiner
      rfl
    · simp at combiner
  · intro stage member set written
    have here : stage = .tupleSet shuffle := by simpa using member
    subst here
    obtain rfl := Option.some.inj written
    rw [← Option.some.inj finished.sink]
    rfl
  · rintro _ set ⟨⟩ written table
    obtain rfl : place.sink = set := Option.some.inj written
    rcases aggregatePlacement_cases placed with plain | ⟨sink, kept, waits⟩
    · simp [plain] at table
    · exact ⟨id, _, rfl, kind, kept, sink, if_pos waits⟩

/-- What a join's hash table is built of is a set of the job's. -/
theorem joinBuild_handsOver (made : v.joinBuild next draft prev id = .ok segment)
    (plain : draft.combiner = none)
    : v.HandsOver segment := by
  obtain ⟨c, stage, -, finished, rfl⟩ := joinBuild_eq_ok made
  have builds : (v.buildStage next draft prev id c stage.sourceTupleSet).isTupleSet = false
      ∧ (v.buildStage next draft prev id c stage.sourceTupleSet).sink? = none := by
    unfold buildStage
    cases v.strategyFor draft <;> exact ⟨rfl, rfl⟩
  have feed : (v.buildDraft next draft prev id c).combiner = none
      ∧ ∃ sink,
          (v.buildDraft next draft prev id c).sink = some sink
          ∧ sink.isAggregationResult = false := by
    unfold buildDraft
    cases v.strategyFor draft <;> exact ⟨plain, _, rfl, rfl⟩
  obtain ⟨combiner, sink, aimed, job⟩ := feed
  refine ⟨?_, ?_, ?_⟩
  · intro other member
    rcases List.mem_pair.mp member with same | build
    · obtain rfl := Stage.tupleSet.inj same
      exact marked_of_plain finished combiner
    · rw [← build] at builds
      simp [Stage.isTupleSet] at builds
  · intro other member set written
    have here : other = .tupleSet stage := by simpa [buildSegment] using member
    subst here
    obtain rfl : stage.sink = set := Option.some.inj written
    obtain rfl := Option.some.inj (aimed.symm.trans finished.sink)
    exact job
  · rintro _ set ⟨⟩ written
    simp [builds.2] at written

theorem Ends.handsOver (ending : v.Ends next draft prev id segment)
    (plain : draft.combiner = none)
    : v.HandsOver segment := by
  cases ending with
  | output kind unread made => exact output_handsOver made plain
  | materialize kind shared made => exact materialize_handsOver made plain
  | aggregate kind made => exact aggregate_handsOver kind made
  | partition kind made => exact partition_handsOver made plain
  | build kind read accepted made => exact joinBuild_handsOver made plain

-----------------------------------------------------------------------------------------------
-- Pipelines
-----------------------------------------------------------------------------------------------

/-- A crossing puts at most one stage before the others, which writes a set of the job's. -/
theorem handsOver_across {strategy : JoinStrategy} {hashSet : String} {c : Crossing}
    (crossed : v.crossing next draft prev id strategy hashSet = .ok c)
    (plain : draft.combiner = none) (nonempty : segment.stages ≠ [])
    (later : c.draft.combiner = none → v.HandsOver segment)
    : v.HandsOver (segment.across c) := by
  cases crosses_of_crossing crossed with
  | broadcast =>
      obtain ⟨marked, early, final⟩ := later plain
      refine ⟨marked, early, fun stage set last written table => ?_⟩
      obtain ⟨q, merge, here, kind, kept, named, new⟩ := final stage set last written table
      exact ⟨q, merge, here, kind, kept, named, new⟩
  | @split c closed found finished sink splits =>
      obtain ⟨marked, early, final⟩ := later rfl
      refine ⟨?_, ?_, ?_⟩
      · intro other member
        rcases List.mem_cons.mp member with same | behind
        · obtain rfl := Stage.tupleSet.inj same
          exact marked_of_plain finished plain
        · exact marked other behind
      · intro other member set written
        rw [Segment.across, List.singleton_append, List.dropLast_cons_of_ne_nil nonempty] at member
        rcases List.mem_cons.mp member with rfl | behind
        · obtain rfl := Option.some.inj written
          rw [sink]
          rfl
        · exact early other behind set written
      · intro other set last written table
        obtain ⟨first, rest, whole⟩ := List.exists_cons_of_ne_nil nonempty
        rw [Segment.across, List.singleton_append, whole, List.getLast?_cons_cons, ← whole] at last
        obtain ⟨q, merge, here, kind, kept, named, new⟩ := final other set last written table
        exact ⟨q, merge, here, kind, kept, named, new⟩

/-- A pipeline hands over at most the hash table of the aggregate that it ends in.
Witness: induction on the pipeline, whose draft combines nothing.
-/
theorem Pipeline.handsOver (pipeline : v.Pipeline next draft prev path segment)
    (plain : draft.combiner = none)
    : v.HandsOver segment := by
  induction pipeline with
  | ends ending => exact ending.handsOver plain
  | pass kind active rest ih =>
      obtain ⟨marked, early, final⟩ := ih plain
      refine ⟨marked, early, fun stage set last written table => ?_⟩
      obtain ⟨q, merge, here, kind, kept, named, new⟩ := final stage set last written table
      exact ⟨q, merge, here, kind, kept, named, new⟩
  | cross started crossed active rest ih =>
      obtain ⟨first, others, whole, -⟩ := rest.begins
      exact handsOver_across crossed plain (by simp [whole]) ih
  | gather started crossed shared made =>
      obtain ⟨first, -, whole⟩ := materialize_carries made
      exact handsOver_across crossed plain (by simp [whole]) (materialize_handsOver made)

/-- Behind the first stage of a chain every stage is fed by another one that is not the last. -/
theorem exists_feeder {first : Stage} {rest : List Stage}
    (links : (first :: rest).IsChain Stage.Feeds) {stage : Stage} (member : stage ∈ rest)
    : ∃ feeder ∈ (first :: rest).dropLast, feeder.Feeds stage := by
  induction rest generalizing first with
  | nil => simp at member
  | cons second rest ih =>
      obtain ⟨feeds, links⟩ := List.isChain_cons_cons.mp links
      rw [List.dropLast_cons_of_ne_nil (List.cons_ne_nil second rest)]
      rcases List.mem_cons.mp member with rfl | later
      · exact ⟨first, List.mem_cons_self, feeds⟩
      · obtain ⟨feeder, before, feeds⟩ := ih links later
        exact ⟨feeder, List.mem_cons_of_mem _ before, feeds⟩

variable {source table : SetId}

/-- A hash table is read by the first stage of a pipeline that starts from it, and by no other.
Witness: every later stage reads what another one but the last has written.
-/
theorem Pipeline.readers_eq (pipeline : v.Pipeline next draft prev path segment)
    (starts : draft.source = some source) (plain : draft.combiner = none)
    (isTable : table.isAggregationResult = true)
    : ∃ first,
        .tupleSet first ∈ segment.stages
        ∧ first.Marked
        ∧ first.source = source
        ∧ readers table segment.stages = if source = table then [.tupleSet first] else [] := by
  obtain ⟨marked, early, -⟩ := pipeline.handsOver plain
  obtain ⟨-, links, -⟩ := pipeline.relays starts
  obtain ⟨first, rest, whole, begins⟩ := pipeline.begins
  have reads : first.source = source := Option.some.inj (begins.source.symm.trans starts)
  have behind : readers table rest = [] := by
    refine List.filter_eq_nil_iff.mpr fun stage member same => ?_
    rw [whole] at links early
    obtain ⟨feeder, before, feeds⟩ := exists_feeder links member
    rw [beq_iff_eq] at same
    have job := early feeder before stage.source feeds
    rw [same, isTable] at job
    simp at job
  refine ⟨first, by simp [whole], marked first (by simp [whole]), reads, ?_⟩
  rw [whole, ← List.singleton_append, readers_append, behind, List.append_nil, readers,
    List.filter_singleton]
  simp [Stage.source, reads]

/-- What a segment does to a hash table besides reading it: nothing, or its last stage leaves it. -/
inductive WritesTable (v : View) (segment : Segment) (table : SetId) : Prop
  | aside (unwritten : writers table segment.stages = [])
    (unsourced : ∀ q, segment.newSource ≠ some (q, table))
  | leaves {q merge} (left : v.LeavesTable segment q merge) (sink : merge.sink = table)
    (written : writers table segment.stages = [.aggregation merge])

/-- Coming through one more node changes nothing of that. -/
theorem WritesTable.through (writes : v.WritesTable segment table) (id : NodeId)
    : v.WritesTable (segment.through id) table := by
  cases writes with
  | aside unwritten unsourced => exact .aside unwritten unsourced
  | leaves left sink written =>
      exact .leaves ⟨left.kind, left.kept, left.table, left.new⟩ sink written

/-- A hash table is written by no stage of a pipeline, or by its last one, which leaves it. -/
theorem Pipeline.writesTable (pipeline : v.Pipeline next draft prev path segment)
    (starts : draft.source = some source) (plain : draft.combiner = none)
    (isTable : table.isAggregationResult = true)
    : v.WritesTable segment table := by
  obtain ⟨-, early, final⟩ := pipeline.handsOver plain
  obtain ⟨⟨first, head, -⟩, -, leaves⟩ := pipeline.relays starts
  rcases List.eq_nil_or_concat' segment.stages with none | ⟨front, stage, whole⟩
  · simp [none] at head
  · have last : segment.stages.getLast? = some stage := by rw [whole, List.getLast?_concat]
    have before : writers table front = [] := by
      refine List.filter_eq_nil_iff.mpr fun other member same => ?_
      have job := early other (by simpa [whole] using member) table (beq_iff_eq.mp same)
      simp [isTable] at job
    by_cases written : stage.sink? = some table
    · obtain ⟨q, merge, rfl, left⟩ := final stage table last written isTable
      refine .leaves left (Option.some.inj written) ?_
      rw [whole, writers_append, before, List.nil_append]
      simp [writers, written]
    · refine .aside ?_ fun q new => ?_
      · rw [whole, writers_append, before, List.nil_append]
        simp [writers, written]
      obtain ⟨other, isLast, writes⟩ := leaves q table new
      obtain rfl := Option.some.inj (last.symm.trans isLast)
      exact written writes

end View

end DataflowPlan
