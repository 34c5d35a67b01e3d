import DataflowPlan.Proofs.Analysis.HandOver
import DataflowPlan.Proofs.Session.Supply

/-! Hash tables of aggregates over a whole run. Each is written once, by a stage that merges an
aggregate and does not materialize it, and read at most once, by a later stage that drops it: the
aggregate has one consumer, and the edge to that consumer is followed once.
-/

namespace DataflowPlan

/-- The stage reads the set, writes it, or combines into it. -/
def Stage.Mentions (stage : Stage) (set : SetId) : Prop :=
  stage.source = set
  ∨ stage.sink? = some set
  ∨ ∃ s, stage = .tupleSet s ∧ s.combiner = some set

/-- The hash table has one writer, which merges an aggregate without materializing it, and at most
one reader, which comes later, takes the partitions as they are and drops them.
-/
inductive HandedOver (table : SetId) (stages : List Stage) : Prop
  | waits {merge} (written : writers table stages = [.aggregation merge])
    (kept : merge.materialize = false) (unread : readers table stages = [])
  | taken {merge reader} (written : writers table stages = [.aggregation merge])
    (kept : merge.materialize = false) (read : readers table stages = [.tupleSet reader])
    (drops : reader.needRemoveInput = true) (partitioned : reader.inputAggHashOut = true)
    (later : List.Sublist [.aggregation merge, .tupleSet reader] stages)

theorem HandedOver.append {table : SetId} {stages more : List Stage}
    (handed : HandedOver table stages) (unwritten : writers table more = [])
    (unread : readers table more = [])
    : HandedOver table (stages ++ more) := by
  cases handed with
  | waits written kept none =>
      exact .waits (by simp [written, unwritten]) kept (by simp [none, unread])
  | taken written kept read drops partitioned later =>
      exact .taken (by simp [written, unwritten]) kept (by simp [read, unread]) drops partitioned
        (later.trans (List.sublist_append_left _ _))

namespace Session

variable {g : Graph} {first s m : Session} {followed : List Arena.Edge} {stats : Statistics}
  {skip : List String} {key : String} {source last p q : NodeId} {init : List NodeId}
  {reached : StageId} {segment : Segment} {set table : SetId} {out : Increment}

/-- How far a hash table is: no stage and no source knows it, its only consumer is to be planned, or
that one is planned and nothing reads it any more.
-/
inductive TableState (s : Session) (stages : List Stage) (table : SetId) : Prop
  | unmade (unwritten : writers table stages = []) (unread : readers table stages = [])
    (unknown : ∀ p, (s.node p).sourceSet ≠ some table)
  | waits {holder merge} (isSource : (s.node holder).sourceSet = some table)
    (written : writers table stages = [.aggregation merge]) (kept : merge.materialize = false)
    (unread : readers table stages = [])
  | taken {holder} (isSource : (s.node holder).sourceSet = some table)
    (spent : (s.node holder).active = [])
    (handed : HandedOver table stages)

/-- What a session and the stages so far say of the hash tables of aggregates: those that are
sources are left by aggregates and go by their names.
-/
structure TracksTables (out : Increment) (s : Session) : Prop where
  named
    : ∀ p set,
        (s.node p).sourceSet = some set →
          set.isAggregationResult = true →
            set = aggregateTable s.jobId (s.node p).output
            ∧ (s.node p).atomic.kind = .aggregate
  marked : ∀ stage, .tupleSet stage ∈ out.stages → stage.Marked
  states : ∀ table, table.isAggregationResult = true → s.TableState out.stages table

/-- Two sources of one hash table are one node. -/
theorem TracksTables.eq_of_source (tracks : TracksTables out s)
    (reaches : Reaches g first s followed) (isTable : table.isAggregationResult = true)
    (left : (s.node p).sourceSet = some table) (right : (s.node q).sourceSet = some table)
    : p = q := by
  have names :=
    (tracks.named p table left isTable).1.symm.trans (tracks.named q table right isTable).1
  exact reaches.wired.sound.id_eq (has_of_source left) (has_of_source right)
    (aggregateTable_inj names)

/-- At the beginning every source is a scan, and there are no stages. -/
theorem Beginning.tracksTables (beginning : s.Beginning g)
    : TracksTables .empty s := by
  have plain : ∀ p set, (s.node p).sourceSet = some set → set.isAggregationResult = false := by
    intro p set isSource
    obtain ⟨c, -, -, names⟩ := beginning.exists_scan isSource
    exact Computation.plain_of_set? names
  refine ⟨?_, by simp [Increment.empty], ?_⟩
  · intro p set isSource isTable
    simp [plain p set isSource] at isTable
  · intro table isTable
    refine .unmade rfl rfl fun p isSource => ?_
    simp [plain p table isSource] at isTable

/-- Sessions of the same sources, of which no more is to be planned, tell the same of hash tables.
-/
theorem TracksTables.congr (tracks : TracksTables out s) (job : m.jobId = s.jobId)
    (atomic : ∀ p, (m.node p).atomic = (s.node p).atomic)
    (sources : ∀ p, (m.node p).sourceSet = (s.node p).sourceSet)
    (spent : ∀ p, (s.node p).active = [] → (m.node p).active = [])
    : TracksTables out m := by
  refine ⟨?_, tracks.marked, ?_⟩
  · intro p set isSource isTable
    rw [sources] at isSource
    rw [job, PhysicalNode.output, atomic]
    exact tracks.named p set isSource isTable
  · intro table isTable
    cases tracks.states table isTable with
    | unmade unwritten unread unknown =>
        exact .unmade unwritten unread fun p => sources p ▸ unknown p
    | @waits q merge isSource written kept unread =>
        exact .waits ((sources q).trans isSource) written kept unread
    | @taken q isSource none handed =>
        exact .taken ((sources q).trans isSource) (spent q none) handed

theorem TracksTables.penalize (tracks : TracksTables out s) (key : String) (source : NodeId)
    : TracksTables out (s.penalize key source) := by
  refine tracks.congr rfl (Arena.frame_rotate s.topology.arena source).atomic
    (sourceSet_penalize s key source) fun p none => ?_
  by_contra waits
  exact (active_penalize_ne s key source p).mp waits none

theorem TracksTables.prune (tracks : TracksTables out s)
    : TracksTables out s.prune :=
  tracks.congr rfl (fun _ => rfl) (fun _ => rfl) fun _ none => none

-----------------------------------------------------------------------------------------------
-- Planned pipelines
-----------------------------------------------------------------------------------------------

/-- A hash table that is a source stays one.
Witness: a pipeline that ends at a source again ends at a step, and hash tables are of aggregates.
-/
theorem TracksTables.source_kept (tracks : TracksTables out s)
    (reaches : Reaches g first s followed)
    (course : (s.view stats).Course source init last segment)
    (isTable : table.isAggregationResult = true) (isSource : (s.node p).sourceSet = some table)
    : ((s.commit key source reached segment).node p).sourceSet = some table := by
  rw [sourceSet_commit course (reaches.has_last course)]
  split
  · next id made new =>
      split
      · next here =>
          obtain rfl := here.trans (eq_last_of_newSource course new)
          have step := reaches.other_of_source course (by simp [isSource])
          simp [(tracks.named p table isSource isTable).2] at step
      · exact isSource
  · exact isSource

/-- The table that a pipeline leaves goes by the aggregate that it ends at, which was no source. -/
theorem named_of_leaves (reaches : Reaches g first s followed)
    (course : (s.view stats).Course source init last segment) {merge : AggregationStage}
    (left : (s.view stats).LeavesTable segment p merge) (sink : merge.sink = table)
    : table = aggregateTable s.jobId (s.node p).output
      ∧ (s.node p).atomic.kind = .aggregate
      ∧ (s.node p).sourceSet = none := by
  obtain rfl := eq_last_of_newSource course left.new
  have aggregate : (s.node p).atomic.kind = .aggregate :=
    (reaches.wired.aggregation_iff (reaches.has_last course)).mp left.kind
  refine ⟨sink.symm.trans left.table, aggregate, ?_⟩
  by_contra was
  have step := reaches.other_of_source course was
  simp [aggregate] at step

/-- No source reads the table that a pipeline leaves. -/
theorem TracksTables.unknown_of_leaves (tracks : TracksTables out s)
    (reaches : Reaches g first s followed)
    (course : (s.view stats).Course source init last segment) {merge : AggregationStage}
    (left : (s.view stats).LeavesTable segment p merge) (sink : merge.sink = table)
    (isTable : table.isAggregationResult = true)
    : (s.node q).sourceSet ≠ some table := by
  intro isSource
  obtain ⟨named, -, fresh⟩ := named_of_leaves reaches course left sink
  have same := aggregateTable_inj ((tracks.named q table isSource isTable).1.symm.trans named)
  have inside : s.topology.arena.Has p :=
    eq_last_of_newSource course left.new ▸ reaches.has_last course
  obtain rfl := reaches.wired.sound.id_eq (has_of_source isSource) inside same
  simp [isSource] at fresh

theorem TracksTables.named_commit (tracks : TracksTables out s)
    (reaches : Reaches g first s followed)
    (course : (s.view stats).Course source init last segment)
    (writes : (s.view stats).WritesTable segment table) (isTable : table.isAggregationResult = true)
    (isSource : ((s.commit key source reached segment).node p).sourceSet = some table)
    : table = aggregateTable s.jobId (s.node p).output
      ∧ (s.node p).atomic.kind = .aggregate := by
  rcases sourceSet_commit_cases course (reaches.has_last course) isSource with was | ⟨rfl, new⟩
  · exact tracks.named p table was isTable
  · cases writes with
    | aside unwritten unsourced => exact absurd new (unsourced p)
    | leaves left sink written =>
        obtain rfl := eq_last_of_newSource course left.new
        obtain ⟨named, aggregate, -⟩ := named_of_leaves reaches course left sink
        exact ⟨named, aggregate⟩

/-- What a planned pipeline does to a hash table: it leaves one that was not known, picks one up
that waits for its last consumer, or has nothing to do with it.
-/
theorem TracksTables.state_commit (tracks : TracksTables out s) (once : s.ReadOnce)
    (reaches : Reaches g first s followed)
    (course : (s.view stats).Course source init last segment)
    (isSource : (s.node source).sourceSet = some set) (live : (s.node source).active ≠ [])
    (isTable : table.isAggregationResult = true)
    (writes : (s.view stats).WritesTable segment table) {reader : TupleSetStage}
    (member : .tupleSet reader ∈ segment.stages) (marked : reader.Marked)
    (reads : reader.source = set)
    (read : readers table segment.stages = if set = table then [.tupleSet reader] else [])
    : (s.commit key source reached segment).TableState (out.stages ++ segment.stages) table := by
  cases writes with
  | @leaves q merge left sink written =>
      have unknown : ∀ p, (s.node p).sourceSet ≠ some table := fun p =>
        tracks.unknown_of_leaves reaches course left sink isTable
      have apart : set ≠ table := fun same => unknown source (same ▸ isSource)
      rw [if_neg apart] at read
      cases tracks.states table isTable with
      | unmade unwritten unread =>
          have after : ((s.commit key source reached segment).node q).sourceSet = some table := by
            rw [sourceSet_commit course (reaches.has_last course), left.new, ← sink]
            exact if_pos rfl
          exact .waits after (by simp [unwritten, written]) left.kept (by simp [unread, read])
      | waits known => exact absurd known (unknown _)
      | taken known => exact absurd known (unknown _)
  | aside unwritten unsourced =>
      by_cases same : set = table
      · subst same
        rw [if_pos rfl] at read
        cases tracks.states set isTable with
        | unmade _ _ unknown => exact absurd isSource (unknown source)
        | @waits holder merge known written kept unread =>
            refine .taken (tracks.source_kept reaches course isTable isSource)
              (spent_of_commit course (once source set isSource isTable).2) ?_
            have before : [Stage.aggregation merge].Sublist out.stages :=
              written ▸ List.filter_sublist
            exact .taken (by simp [written, unwritten]) kept (by simp [unread, read])
              (by rw [marked.drops, reads, isTable]) (by rw [marked.partitioned, reads, isTable])
              (before.append (List.singleton_sublist.mpr member))
        | taken known spent handed =>
            obtain rfl := tracks.eq_of_source reaches isTable isSource known
            exact absurd spent live
      · rw [if_neg same] at read
        cases tracks.states table isTable with
        | unmade none unread unknown =>
            refine .unmade (by simp [none, unwritten]) (by simp [unread, read]) fun p after => ?_
            rcases sourceSet_commit_cases course (reaches.has_last course) after with
              was | ⟨-, new⟩
            · exact unknown p was
            · exact unsourced _ new
        | waits known written kept unread =>
            exact .waits (tracks.source_kept reaches course isTable known)
              (by simp [written, unwritten]) kept (by simp [unread, read])
        | @taken holder known spent handed =>
            refine .taken (tracks.source_kept reaches course isTable known) ?_
              (handed.append unwritten read)
            by_contra waits
            exact active_of_commit course waits spent

theorem TracksTables.commit (tracks : TracksTables out s) (once : s.ReadOnce)
    (reaches : Reaches g first s followed)
    (done : s.Committed stats skip key source reached segment)
    : TracksTables (out.append ⟨segment.stages, segment.intermediateSets⟩)
        (s.commit key source reached segment) := by
  obtain ⟨init, last, set, inner, course, isSource, pipeline, rfl⟩ :=
    View.pipeline_of_analyze done.planned
  refine ⟨?_, ?_, ?_⟩
  · intro p table after isTable
    rw [(settings_commit s key source reached _).1, PhysicalNode.output, atomic_commit course]
    have writes := (pipeline.writesTable rfl rfl isTable).through source
    exact tracks.named_commit reaches course writes isTable after
  · intro stage member
    rcases List.mem_append.mp member with before | later
    · exact tracks.marked stage before
    · exact (pipeline.handsOver rfl).marked stage later
  · intro table isTable
    obtain ⟨reader, member, marked, reads, read⟩ := pipeline.readers_eq rfl rfl isTable
    have writes := (pipeline.writesTable rfl rfl isTable).through source
    exact tracks.state_commit once reaches course isSource done.live.2 isTable writes member marked
      reads read

-----------------------------------------------------------------------------------------------
-- Runs
-----------------------------------------------------------------------------------------------

/-- What the stages so far and the session tell of hash tables, in a session that a run leads to. -/
theorem steady_tracksTables (g : Graph) (first : Session)
    : Steady fun out s =>
        ∃ followed, Reaches g first s followed ∧ s.ReadOnce ∧ TracksTables out s :=
  steady_of_kept (P := fun _ out s => s.ReadOnce ∧ TracksTables out s)
    (fun reaches ⟨once, tracks⟩ done course pipeline whole =>
      ⟨once.commit reaches course pipeline whole, tracks.commit once reaches done⟩)
    (fun ⟨once, tracks⟩ key source => ⟨once.penalize key source, tracks.penalize key source⟩)
    (fun ⟨once, tracks⟩ => ⟨once, tracks.prune⟩)

/-- A hash table that the stages mention is handed over: the stages know it. -/
theorem TracksTables.handedOver (tracks : TracksTables out s)
    (isTable : table.isAggregationResult = true) {stage : Stage} (member : stage ∈ out.stages)
    (mentions : stage.Mentions table)
    : HandedOver table out.stages := by
  cases tracks.states table isTable with
  | waits _ written kept unread => exact .waits written kept unread
  | taken _ _ handed => exact handed
  | unmade unwritten unread unknown =>
      rcases mentions with reads | writes | ⟨s, rfl, combines⟩
      · have listed : stage ∈ readers table out.stages := mem_readers_iff.mpr ⟨member, reads⟩
        simp [unread] at listed
      · have listed : stage ∈ writers table out.stages := mem_writers_iff.mpr ⟨member, writes⟩
        simp [unwritten] at listed
      · have plain := (tracks.marked s member).combines table combines
        simp [isTable] at plain

/-- In every run each hash table of an aggregate that the stages mention is written by one of them,
which merges the aggregate without materializing it, and read by at most one, which comes later and
drops it; and no stage drops anything else.
-/
theorem handedOver_of_run {jobId : String} {g : Graph} {config : PlannerConfig}
    (started : Session.start jobId g config = .ok first) (calls : List (Call × Statistics))
    : (∀ table : SetId,
          table.isAggregationResult = true →
            (∃ stage ∈ (first.run calls).1.stages, stage.Mentions table) →
              HandedOver table (first.run calls).1.stages)
      ∧ ∀ stage,
          .tupleSet stage ∈ (first.run calls).1.stages →
            stage.needRemoveInput = true → stage.source.isAggregationResult = true := by
  obtain ⟨beginning, -⟩ := beginning_of_start started
  obtain ⟨-, -, -, tracks⟩ := (steady_tracksTables g first).run
    ⟨[], beginning.reaches, beginning.readOnce, beginning.tracksTables⟩ calls
  refine ⟨?_, ?_⟩
  · rintro table isTable ⟨stage, member, mentions⟩
    exact tracks.handedOver isTable member mentions
  · intro stage member drops
    rw [← (tracks.marked stage member).drops]
    exact drops

/-- An aggregate that is not combined any further, with one reader. -/
def totalsRead : Graph :=
  .ofLists
    [.scan "scan" "db" "in", .ofKind "agg" .aggregation,
      (Computation.ofKind "write" .write).setOutput "db" "out"]
    [.scan "in" "scan", .aggregate "totals" "in" "agg", .apply "o" "totals" "write"]

/-- The second pipeline starts from the table that the first one leaves, and drops it. -/
theorem totalsRead_handedOver
    : ∃ first reader,
        Session.start "job" totalsRead .standard = .ok first
        ∧ readers (aggregateTable "job" "totals")
            (first.run (List.replicate 2 (.planIncrement, .empty))).1.stages
          = [.tupleSet reader]
        ∧ reader.needRemoveInput = true
        ∧ HandedOver (aggregateTable "job" "totals")
            (first.run (List.replicate 2 (.planIncrement, .empty))).1.stages := by
  have evaluated : (Session.start "job" totalsRead .standard).toOption.any (fun first =>
      !(readers (aggregateTable "job" "totals")
          (first.run (List.replicate 2 (.planIncrement, .empty))).1.stages).isEmpty) = true := by
    decide +kernel
  obtain ⟨first, started, evaluated⟩ := Except.toOption_any_iff.mp evaluated
  have read : readers (aggregateTable "job" "totals")
      (first.run (List.replicate 2 (.planIncrement, .empty))).1.stages ≠ [] := by
    simpa using evaluated
  obtain ⟨stage, member⟩ := List.exists_mem_of_ne_nil _ read
  have listed := mem_readers_iff.mp member
  have handed := (handedOver_of_run started (List.replicate 2 (.planIncrement, .empty))).1
    (aggregateTable "job" "totals") rfl ⟨stage, listed.1, .inl listed.2⟩
  cases handed with
  | waits _ _ unread => exact absurd unread read
  | @taken merge reader written kept taken drops partitioned later =>
      exact ⟨first, reader, started, taken, drops,
        .taken written kept taken drops partitioned later⟩

end Session

end DataflowPlan
