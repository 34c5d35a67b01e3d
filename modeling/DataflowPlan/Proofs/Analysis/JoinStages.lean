import DataflowPlan.Proofs.Analysis.Visits

/-! The stages of one pipeline that have to do with a join. A join that the pipeline does not come
to is left aside; one where it ends for the first side is built by the last stage; one that it
comes to again is probed by one stage, behind the stage that splits the data if the table is split
by key.
-/

namespace DataflowPlan

-----------------------------------------------------------------------------------------------
-- Names
-----------------------------------------------------------------------------------------------

/-- What is put behind different names ends alike only if one ending ends with the other. -/
theorem suffix_of_append_eq {left right ending other : String}
    (same : left ++ ending = right ++ other)
    : ending.toList <:+ other.toList ∨ other.toList <:+ ending.toList := by
  have lists := congrArg String.toList same
  rw [String.toList_append, String.toList_append] at lists
  exact List.suffix_or_suffix_of_suffix ⟨_, lists⟩ ⟨_, rfl⟩

theorem setKey_inj {database left right : String}
    (same : setKey database left = setKey database right)
    : left = right :=
  (String.append_right_inj (database ++ ":")).mp same

/-- The name of the hash set that the building side of a join leaves. -/
def hashSetKey (jobId output : String) (strategy : JoinStrategy) : String :=
  setKey jobId (output ++ View.buildSuffix strategy)

/-- The key of the set that the probing side of a join is split into. -/
def probeKey (jobId output : String) : String :=
  setKey jobId (output ++ "_probeRepartitionData")

/-- Hash sets of different joins have different names, and so have those of different strategies. -/
theorem hashSetKey_inj {jobId left right : String} {strategy other : JoinStrategy}
    (same : hashSetKey jobId left strategy = hashSetKey jobId right other)
    : left = right ∧ strategy = other := by
  have names := setKey_inj same
  have alike := suffix_of_append_eq names
  cases strategy with
  | hashPartitioned =>
      cases other with
      | hashPartitioned => exact ⟨(String.append_left_inj _).mp names, rfl⟩
      | broadcast => exact absurd alike (by decide)
  | broadcast =>
      cases other with
      | hashPartitioned => exact absurd alike (by decide)
      | broadcast => exact ⟨(String.append_left_inj _).mp names, rfl⟩

-----------------------------------------------------------------------------------------------
-- Stages
-----------------------------------------------------------------------------------------------

namespace Stage

/-- The stage builds a hash table for the join. -/
def BuildsFor (jobId output : String) (stage : Stage) : Prop :=
  ∃ strategy, stage.built? = some (hashSetKey jobId output strategy)

/-- The stage builds the join's hash table of what the stage just before it wrote, both in the way
of the strategy.
-/
structure BuildsFrom (jobId output : String) (strategy : JoinStrategy) (hashSet : String)
    (feed : TupleSetStage) (build : Stage) : Prop where
  key : hashSet = hashSetKey jobId output strategy
  builds : build.built? = some hashSet
  kind
    : build.kind
        = match strategy with
          | .hashPartitioned => .partitionedBuild
          | .broadcast => .broadcastBuild
  reads : build.source = feed.sink
  fed
    : match strategy with
      | .hashPartitioned => feed.repartitionJoin = true
      | .broadcast => feed.broadcasting = true

theorem BuildsFrom.not_tupleSet {jobId output hashSet : String} {strategy : JoinStrategy}
    {feed : TupleSetStage} {build : Stage}
    (builds : BuildsFrom jobId output strategy hashSet feed build) (stage : TupleSetStage)
    : build ≠ .tupleSet stage := by
  rintro rfl
  have made := builds.builds
  simp [built?] at made

/-- The stage probes the hash set for the join. -/
def Probes (output hashSet : String) (stage : TupleSetStage) : Prop :=
  ∃ table, stage.probes = some table ∧ table.get? output = some hashSet

/-- How the data comes to the probing stage: as it is, or from the stage that splits it by key. -/
def Arrives (jobId output : String) : JoinStrategy → List Stage → TupleSetStage → Prop
  | .broadcast, split, _ => split = []
  | .hashPartitioned, split, probe =>
    ∃ stage,
      split = [.tupleSet stage]
      ∧ stage.repartitionJoin = true
      ∧ stage.sink.key = probeKey jobId output
      ∧ probe.source = stage.sink

end Stage

/-- None of the stages builds or probes a hash table for the join. -/
def Aside (jobId output : String) (stages : List Stage) : Prop :=
  ∀ stage ∈ stages, ¬ stage.BuildsFor jobId output ∧ stage.probesJoin output = false

theorem Aside.append {jobId output : String} {stages more : List Stage}
    (aside : Aside jobId output stages) (later : Aside jobId output more)
    : Aside jobId output (stages ++ more) := by
  intro stage member
  rcases List.mem_append.mp member with before | after
  · exact aside stage before
  · exact later stage after

theorem aside_nil (jobId output : String) : Aside jobId output [] := by
  intro stage member
  simp at member

/-- The stages build the join's hash table at their end. -/
structure Built (jobId output : String) (strategy : JoinStrategy) (hashSet : String)
    (stages : List Stage) : Prop where
  parts
    : ∃ front feed build,
        stages = front ++ [.tupleSet feed, build]
        ∧ Stage.BuildsFrom jobId output strategy hashSet feed build
        ∧ Aside jobId output (front ++ [.tupleSet feed])

/-- One of the stages probes the join's hash table. -/
structure Probed (jobId output : String) (strategy : JoinStrategy) (hashSet : String)
    (stages : List Stage) : Prop where
  parts
    : ∃ front split probe rest,
        stages = front ++ split ++ .tupleSet probe :: rest
        ∧ Stage.Arrives jobId output strategy split probe
        ∧ Stage.Probes output hashSet probe
        ∧ Aside jobId output (front ++ split)
        ∧ Aside jobId output rest

theorem Probed.behind {jobId output hashSet : String} {strategy : JoinStrategy}
    {stages before : List Stage}
    (probed : Probed jobId output strategy hashSet stages) (aside : Aside jobId output before)
    : Probed jobId output strategy hashSet (before ++ stages) := by
  obtain ⟨front, split, probe, rest, rfl, arrives, probes, frontAside, restAside⟩ := probed
  refine ⟨before ++ front, split, probe, rest, by simp, arrives, probes, ?_, restAside⟩
  rw [List.append_assoc]
  exact aside.append frontAside

namespace View

variable {v : View} {next : StageId} {draft : TupleSetDraft} {prev id : NodeId}
  {segment : Segment} {jobId output hashSet : String}

/-- The stage carries on the draft: it reads what the draft reads, and probes what it probes. -/
structure Carries (draft : TupleSetDraft) (stage : TupleSetStage) : Prop where
  source : draft.source = some stage.source
  probes : stage.probes = if draft.isProbing then some draft.probes else none
  drops : stage.needRemoveInput = stage.source.isAggregationResult

theorem carries_of_finished {d : TupleSetDraft} {stage : TupleSetStage}
    (finished : d.Finished stage) (source : d.source = draft.source)
    (probes : d.probes = draft.probes)
    : Carries draft stage := by
  refine ⟨source ▸ finished.source, ?_, finished.needRemoveInput⟩
  have probing : draft.isProbing = d.isProbing := by
    rw [TupleSetDraft.isProbing, TupleSetDraft.isProbing, probes]
  rw [probing, ← probes]
  exact finished.probes

/-- The stages of an ending: one that carries on the draft, and behind it the merging of an
aggregate or the building of a join's hash table.
-/
inductive Shape (v : View) (draft : TupleSetDraft) (id : NodeId) (segment : Segment) : Prop
  | single {first} (carries : Carries draft first) (whole : segment.stages = [.tupleSet first])
  | merged {first merge} (kind : (v.node id).kind = .aggregation) (carries : Carries draft first)
    (whole : segment.stages = [.tupleSet first, .aggregation merge])
  | built {first build name strategy hashSet} (kind : (v.node id).kind = .join .notStarted)
    (carries : Carries draft first)
    (builds : Stage.BuildsFrom v.jobId (v.outputOf id) strategy hashSet first build)
    (starts : .startJoin id name strategy hashSet ∈ segment.changes)
    (whole : segment.stages = [.tupleSet first, build])

/-- A set is materialized by one stage, which carries on the draft. -/
theorem materialize_carries (made : v.materialize next draft prev id = .ok segment)
    : ∃ first, Carries draft first ∧ segment.stages = [.tupleSet first] := by
  obtain ⟨c, place, stage, -, -, finished, rfl⟩ := materialize_eq_ok made
  exact ⟨stage, carries_of_finished finished rfl rfl, rfl⟩

theorem joinBuild_shape (kind : (v.node id).kind = .join .notStarted)
    (made : v.joinBuild next draft prev id = .ok segment)
    : v.Shape draft id segment := by
  obtain ⟨c, stage, -, finished, rfl⟩ := joinBuild_eq_ok made
  have carries : Carries draft stage := by
    refine carries_of_finished finished ?_ ?_ <;>
      · unfold buildDraft
        cases v.strategyFor draft <;> rfl
  have sink := finished.sink
  have partitioned := finished.repartitionJoin
  have broadcasting := finished.broadcasting
  refine .built kind carries ?_ (List.mem_singleton_self _) rfl
  unfold buildDraft at sink partitioned broadcasting
  unfold buildStage
  cases strategy : v.strategyFor draft with
  | hashPartitioned =>
      simp only [strategy] at sink partitioned
      exact ⟨rfl, rfl, rfl, Option.some.inj sink, partitioned⟩
  | broadcast =>
      simp only [strategy] at sink broadcasting
      exact ⟨rfl, rfl, rfl, Option.some.inj sink, broadcasting⟩

theorem Ends.shape (ending : v.Ends next draft prev id segment)
    : v.Shape draft id segment := by
  cases ending with
  | output kind unread made =>
      obtain ⟨c, sink, stage, -, -, finished, rfl⟩ := output_eq_ok made
      exact .single (carries_of_finished finished rfl rfl) rfl
  | materialize kind shared made =>
      obtain ⟨first, carries, whole⟩ := materialize_carries made
      exact .single carries whole
  | aggregate kind made =>
      obtain ⟨c, place, materialized, shuffle, merge, -, -, finished, -, rfl⟩ :=
        aggregate_eq_ok made
      exact .merged kind (carries_of_finished finished rfl rfl) rfl
  | partition kind made =>
      obtain ⟨c, place, stage, -, -, finished, rfl⟩ := partition_eq_ok made
      exact .single (carries_of_finished finished rfl rfl) rfl
  | build kind read accepted made => exact joinBuild_shape kind made

-----------------------------------------------------------------------------------------------
-- Probes
-----------------------------------------------------------------------------------------------

theorem probesJoin_of_carries {stage : TupleSetStage} (carries : Carries draft stage)
    (output : String)
    : (Stage.tupleSet stage).probesJoin output = draft.probes.contains output :=
  probesJoin_of_probes carries.probes output

/-- A stage that carries on a draft which probes a join probes it. -/
theorem probes_of_carries {stage : TupleSetStage} (carries : Carries draft stage)
    (probes : draft.probes.get? output = some hashSet)
    : Stage.Probes output hashSet stage := by
  refine ⟨draft.probes, ?_, probes⟩
  have probing : draft.isProbing = true := by
    by_contra none
    have empty : draft.probes.entries = [] := by
      simpa [TupleSetDraft.isProbing, Table.isEmpty] using none
    simp [Table.get?, empty] at probes
  rw [carries.probes, if_pos probing]

theorem contains_insert {probes : Table String} {key value other : String}
    (differs : key ≠ other)
    : (probes.insert key value).contains other = probes.contains other := by
  rw [Bool.eq_iff_iff, Table.contains_insert_iff]
  exact or_iff_right fun same => differs same.symm

/-- A stage that carries on a draft has nothing to do with a join that the draft does not probe. -/
theorem aside_of_carries {stage : TupleSetStage} (carries : Carries draft stage)
    (fresh : draft.probes.contains output = false)
    : Aside jobId output [.tupleSet stage] := by
  intro other member
  rw [List.mem_singleton.mp member, probesJoin_of_carries carries]
  exact ⟨fun ⟨_, made⟩ => by simp [Stage.built?] at made, fresh⟩

theorem aside_merge (jobId output : String) (merge : AggregationStage)
    : Aside jobId output [.aggregation merge] := by
  intro stage member
  rw [List.mem_singleton.mp member]
  exact ⟨fun ⟨_, made⟩ => by simp [Stage.built?] at made, rfl⟩

theorem aside_build {other : String} {strategy : JoinStrategy} {feed : TupleSetStage}
    {build : Stage} (builds : Stage.BuildsFrom jobId other strategy hashSet feed build)
    (differs : other ≠ output)
    : Aside jobId output [build] := by
  intro stage member
  obtain rfl := List.mem_singleton.mp member
  refine ⟨?_, ?_⟩
  · rintro ⟨_, made⟩
    rw [builds.builds, builds.key] at made
    exact differs (hashSetKey_inj (Option.some.inj made)).1
  · have kind := builds.kind
    cases stage with
    | tupleSet s => cases strategy <;> simp [Stage.kind] at kind
    | aggregation s | broadcastBuild s | partitionedBuild s => rfl

/-- The first stage of an ending carries on the draft, and the other one runs no pipeline and leaves
the joins of other outputs aside.
-/
theorem Shape.carries (shape : v.Shape draft id segment)
    : ∃ first rest,
        segment.stages = .tupleSet first :: rest
        ∧ Carries draft first
        ∧ (∀ output, v.outputOf id ≠ output → Aside v.jobId output rest)
        ∧ ∀ stage, .tupleSet stage ∉ rest := by
  cases shape with
  | single carries whole =>
      exact ⟨_, [], whole, carries, fun _ _ => aside_nil _ _, by simp⟩
  | merged kind carries whole =>
      exact ⟨_, _, whole, carries, fun _ _ => aside_merge _ _ _, by simp⟩
  | built kind carries builds starts whole =>
      refine ⟨_, _, whole, carries, fun _ differs => aside_build builds differs, ?_⟩
      intro stage member
      exact builds.not_tupleSet stage (List.mem_singleton.mp member).symm

theorem Shape.aside (shape : v.Shape draft id segment) (differs : v.outputOf id ≠ output)
    (fresh : draft.probes.contains output = false)
    : Aside v.jobId output segment.stages := by
  obtain ⟨first, rest, whole, carries, aside, -⟩ := shape.carries
  rw [whole]
  exact (aside_of_carries carries fresh).append (aside output differs)

/-- What a crossing leaves, and what it goes on with, leaves a join of another output aside. -/
theorem Crosses.aside {strategy : JoinStrategy} {c : Crossing}
    (crosses : v.Crosses next draft prev id hashSet strategy c) (jobId : String)
    (fresh : draft.probes.contains output = false)
    : Aside jobId output c.stages
      ∧ (v.outputOf id ≠ output → c.draft.probes.contains output = false) := by
  cases crosses with
  | broadcast =>
      refine ⟨aside_nil _ _, fun differs => ?_⟩
      exact (contains_insert differs).trans fresh
  | split found finished sink splits =>
      have carries := carries_of_finished finished rfl rfl
      refine ⟨aside_of_carries carries fresh, fun differs => ?_⟩
      exact (contains_insert differs).trans rfl

/-- A pipeline leaves a join aside that it does not come to.
Witness: induction on the pipeline, whose draft never probes that join.
-/
theorem Pipeline.aside {path : List NodeId} (pipeline : v.Pipeline next draft prev path segment)
    (elsewhere : ∀ p ∈ path, v.outputOf p ≠ output)
    (fresh : draft.probes.contains output = false)
    : Aside v.jobId output segment.stages := by
  induction pipeline with
  | @ends next draft prev id segment ending =>
      exact ending.shape.aside (elsewhere id (by simp)) fresh
  | pass kind active rest ih =>
      exact ih (fun p member => elsewhere p (List.mem_cons_of_mem _ member)) fresh
  | @cross next draft prev id strategy hashSet c consumer path segment started crossed active
      rest ih =>
      obtain ⟨before, draftFresh⟩ := (crosses_of_crossing crossed).aside v.jobId fresh
      exact before.append (ih (fun p member => elsewhere p (List.mem_cons_of_mem _ member))
        (draftFresh (elsewhere id (by simp))))
  | @gather next draft prev id strategy hashSet c segment started crossed shared made =>
      obtain ⟨before, draftFresh⟩ := (crosses_of_crossing crossed).aside v.jobId fresh
      obtain ⟨first, carries, whole⟩ := materialize_carries made
      rw [Segment.across, whole]
      exact before.append (aside_of_carries carries (draftFresh (elsewhere id (by simp))))

-----------------------------------------------------------------------------------------------
-- Building
-----------------------------------------------------------------------------------------------

/-- A pipeline that comes to a join which is not started builds its hash table at the end.
Witness: induction on the pipeline, which runs on from steps and started joins alone.
-/
theorem Pipeline.built {path : List NodeId} (pipeline : v.Pipeline next draft prev path segment)
    {p : NodeId} (member : p ∈ path) (kind : (v.node p).kind = .join .notStarted)
    (distinct : (path.map v.outputOf).Nodup)
    (fresh : draft.probes.contains (v.outputOf p) = false)
    : ∃ name strategy hashSet,
        .startJoin p name strategy hashSet ∈ segment.changes
        ∧ Built v.jobId (v.outputOf p) strategy hashSet segment.stages := by
  induction pipeline with
  | @ends next draft prev id segment ending =>
      obtain rfl := List.mem_singleton.mp member
      have shape := ending.shape
      cases ending with
      | output other | materialize other | aggregate other | partition other =>
          simp [kind] at other
      | build _ read accepted made =>
          cases joinBuild_shape kind made with
          | single carries whole =>
              obtain ⟨c, stage, -, -, rfl⟩ := joinBuild_eq_ok made
              simp [buildSegment] at whole
          | merged other => simp [kind] at other
          | @built first build name strategy hashSet _ carries builds starts whole =>
              exact ⟨name, strategy, hashSet, starts, ⟨[], first, build, whole, builds,
                aside_of_carries carries fresh⟩⟩
  | @pass next draft prev id consumer path segment other active rest ih =>
      rcases List.mem_cons.mp member with rfl | later
      · simp [kind] at other
      · obtain ⟨name, strategy, hashSet, starts, built⟩ :=
          ih later (List.nodup_cons.mp distinct).2 fresh
        exact ⟨name, strategy, hashSet, List.mem_append_left _ starts, built⟩
  | @cross next draft prev id strategy hashSet c consumer path segment started crossed active
      rest ih =>
      rcases List.mem_cons.mp member with rfl | later
      · simp [PhysicalNode.IsStarted, kind] at started
      · obtain ⟨apart, distinct⟩ := List.nodup_cons.mp distinct
        have differs : v.outputOf id ≠ v.outputOf p :=
          fun same => apart (same ▸ List.mem_map_of_mem later)
        obtain ⟨before, draftFresh⟩ := (crosses_of_crossing crossed).aside v.jobId fresh
        obtain ⟨name, strategy, hashSet, starts, ⟨front, feed, build, whole, builds, aside⟩⟩ :=
          ih later distinct (draftFresh differs)
        refine ⟨name, strategy, hashSet, starts, ⟨c.stages ++ front, feed, build, ?_, builds, ?_⟩⟩
        · simp [Segment.across, whole]
        · rw [List.append_assoc]
          exact before.append aside
  | @gather next draft prev id strategy hashSet c segment started crossed shared made =>
      obtain rfl := List.mem_singleton.mp member
      simp [PhysicalNode.IsStarted, kind] at started

-----------------------------------------------------------------------------------------------
-- Probing
-----------------------------------------------------------------------------------------------

/-- How a pipeline sets out: its first stage reads what the draft reads and probes what it probes,
and the others leave the joins aside that the pipeline does not come to, and what they read in its
place.
-/
structure Begins (v : View) (draft : TupleSetDraft) (path : List NodeId) (first : TupleSetStage)
    (rest : List Stage) : Prop where
  source : draft.source = some first.source
  drops : first.needRemoveInput = first.source.isAggregationResult
  probes
    : ∀ output hashSet,
        (∀ p ∈ path, v.outputOf p ≠ output) →
          draft.probes.get? output = some hashSet → Stage.Probes output hashSet first
  aside : ∀ output, (∀ p ∈ path, v.outputOf p ≠ output) → Aside v.jobId output rest
  keeps : ∀ stage, .tupleSet stage ∈ rest → stage.needRemoveInput = false

theorem Shape.begins (shape : v.Shape draft id segment)
    : ∃ first rest,
        segment.stages = .tupleSet first :: rest ∧ v.Begins draft [id] first rest := by
  obtain ⟨first, rest, whole, carries, aside, alone⟩ := shape.carries
  refine ⟨first, rest, whole, carries.source, carries.drops, ?_, ?_, ?_⟩
  · exact fun output hashSet _ probes => probes_of_carries carries probes
  · exact fun output elsewhere => aside output (elsewhere id (by simp))
  · exact fun stage member => absurd member (alone stage)

/-- A stage that materializes a set leaves no other one behind it. -/
theorem materialize_begins (made : v.materialize next draft prev id = .ok segment)
    : ∃ first rest,
        segment.stages = .tupleSet first :: rest ∧ v.Begins draft [] first rest := by
  obtain ⟨first, carries, whole⟩ := materialize_carries made
  refine ⟨first, [], whole, carries.source, carries.drops, ?_, ?_, by simp⟩
  · exact fun output hashSet _ probes => probes_of_carries carries probes
  · exact fun output _ => aside_nil _ _

/-- A pipeline that crosses a join sets out with what the crossing leaves, if it leaves anything.
Witness: a broadcast join only adds a probe to the draft.
-/
theorem Crosses.begins {strategy : JoinStrategy} {c : Crossing} {path : List NodeId}
    (crosses : v.Crosses next draft prev id hashSet strategy c)
    (later
      : ∃ first rest,
          segment.stages = .tupleSet first :: rest ∧ v.Begins c.draft path first rest)
    (aside
      : ∀ output,
          (∀ p ∈ path, v.outputOf p ≠ output) →
            c.draft.probes.contains output = false → Aside v.jobId output segment.stages)
    : ∃ first rest,
        (segment.across c).stages = .tupleSet first :: rest
        ∧ v.Begins draft (id :: path) first rest := by
  cases crosses with
  | broadcast =>
      obtain ⟨first, rest, whole, begins⟩ := later
      refine ⟨first, rest, whole, begins.source, begins.drops, ?_, ?_, begins.keeps⟩
      · intro output other elsewhere probes
        refine begins.probes output other (fun p member => elsewhere p (by simp [member])) ?_
        rw [TupleSetDraft.addProbe, Table.get?_insert,
          if_neg fun same => elsewhere id (by simp) same.symm]
        exact probes
      · exact fun output elsewhere =>
          begins.aside output fun p member => elsewhere p (by simp [member])
  | @split c stage found finished sink splits =>
      have carries := carries_of_finished finished rfl rfl
      refine ⟨stage, segment.stages, rfl, carries.source, carries.drops, ?_, ?_, ?_⟩
      · exact fun output other _ probes => probes_of_carries carries probes
      · intro output elsewhere
        refine aside output (fun p member => elsewhere p (by simp [member])) ?_
        exact (contains_insert (elsewhere id (by simp))).trans rfl
      · obtain ⟨first, rest, whole, begins⟩ := later
        intro other member
        rw [whole] at member
        rcases List.mem_cons.mp member with same | later
        · obtain rfl := Stage.tupleSet.inj same
          rw [begins.drops, ← Option.some.inj begins.source]
          rfl
        · exact begins.keeps other later

theorem Pipeline.begins {path : List NodeId} (pipeline : v.Pipeline next draft prev path segment)
    : ∃ first rest,
        segment.stages = .tupleSet first :: rest ∧ v.Begins draft path first rest := by
  induction pipeline with
  | ends ending => exact ending.shape.begins
  | pass kind active rest ih =>
      obtain ⟨first, others, whole, begins⟩ := ih
      refine ⟨first, others, whole, begins.source, begins.drops, ?_, ?_, begins.keeps⟩
      · exact fun output hashSet elsewhere =>
          begins.probes output hashSet fun p member => elsewhere p (List.mem_cons_of_mem _ member)
      · exact fun output elsewhere =>
          begins.aside output fun p member => elsewhere p (List.mem_cons_of_mem _ member)
  | cross started crossed active rest ih =>
      exact (crosses_of_crossing crossed).begins ih fun output => rest.aside
  | gather started crossed shared made =>
      refine (crosses_of_crossing crossed).begins (materialize_begins made) ?_
      obtain ⟨first, carries, whole⟩ := materialize_carries made
      intro output _ fresh
      rw [whole]
      exact aside_of_carries carries fresh

/-- Behind a crossing the first stage probes the join's hash table. -/
theorem Crosses.probed {strategy : JoinStrategy} {c : Crossing} {path : List NodeId}
    (crosses : v.Crosses next draft prev id hashSet strategy c)
    (later
      : ∃ first rest,
          segment.stages = .tupleSet first :: rest ∧ v.Begins c.draft path first rest)
    (elsewhere : ∀ p ∈ path, v.outputOf p ≠ v.outputOf id)
    (fresh : draft.probes.contains (v.outputOf id) = false)
    : Probed v.jobId (v.outputOf id) strategy hashSet (segment.across c).stages := by
  obtain ⟨first, rest, whole, begins⟩ := later
  have probes : Stage.Probes (v.outputOf id) hashSet first := by
    refine begins.probes _ _ elsewhere ?_
    cases crosses <;> simp [TupleSetDraft.addProbe, splitDraft, Table.get?_insert]
  refine ⟨[], c.stages, first, rest, by simp [Segment.across, whole], ?_, probes, ?_,
    begins.aside _ elsewhere⟩
  · cases crosses with
    | broadcast => rfl
    | @split c stage found finished sink splits =>
        refine ⟨stage, rfl, finished.repartitionJoin, ?_, ?_⟩
        · rw [sink]
          rfl
        · rw [sink]
          exact (Option.some.inj begins.source).symm
  · exact (crosses.aside v.jobId fresh).1

/-- A pipeline that comes to a started join probes its hash table, in one of its stages.
Witness: induction on the pipeline up to the crossing of the join.
-/
theorem Pipeline.probed {path : List NodeId} (pipeline : v.Pipeline next draft prev path segment)
    {p : NodeId} (member : p ∈ path) {strategy : JoinStrategy} {hashSet : String}
    (started : (v.node p).IsStarted strategy hashSet) (distinct : (path.map v.outputOf).Nodup)
    (fresh : draft.probes.contains (v.outputOf p) = false)
    : Probed v.jobId (v.outputOf p) strategy hashSet segment.stages := by
  have same : ∀ {other : JoinStrategy} {name : String}, (v.node p).IsStarted other name →
      other = strategy ∧ name = hashSet := by
    intro other name again
    have states := NodeKind.join.inj (again.symm.trans started)
    exact ⟨(JoinState.started.inj states).1, (JoinState.started.inj states).2⟩
  induction pipeline with
  | @ends next draft prev id segment ending =>
      obtain rfl := List.mem_singleton.mp member
      cases ending with
      | output kind | materialize kind | aggregate kind | partition kind | build kind =>
          rw [PhysicalNode.IsStarted, kind] at started
          simp at started
  | @pass next draft prev id consumer path segment kind active rest ih =>
      rcases List.mem_cons.mp member with rfl | later
      · rw [PhysicalNode.IsStarted, kind] at started
        simp at started
      · exact ih later (List.nodup_cons.mp distinct).2 fresh
  | @cross next draft prev id other name c consumer path segment crossing crossed active rest ih =>
      have crosses := crosses_of_crossing crossed
      obtain ⟨apart, distinct⟩ := List.nodup_cons.mp distinct
      rcases List.mem_cons.mp member with rfl | later
      · obtain ⟨rfl, rfl⟩ := same crossing
        refine crosses.probed rest.begins (fun q onPath alike => ?_) fresh
        exact apart (alike ▸ List.mem_map_of_mem onPath)
      · have differs : v.outputOf id ≠ v.outputOf p :=
          fun alike => apart (alike ▸ List.mem_map_of_mem later)
        obtain ⟨before, draftFresh⟩ := crosses.aside v.jobId fresh
        exact (ih later distinct (draftFresh differs)).behind before
  | @gather next draft prev id other name c segment crossing crossed shared made =>
      obtain rfl := List.mem_singleton.mp member
      obtain ⟨rfl, rfl⟩ := same crossing
      exact (crosses_of_crossing crossed).probed (materialize_begins made) (by simp) fresh

-----------------------------------------------------------------------------------------------
-- Ownership
-----------------------------------------------------------------------------------------------

/-- Every build stage of a pipeline builds the hash table of a join that the pipeline comes to. -/
theorem Pipeline.build_owned {path : List NodeId}
    (pipeline : v.Pipeline next draft prev path segment) {stage : Stage}
    (member : stage ∈ segment.stages) (builds : stage.isBuild = true)
    : ∃ p ∈ path,
        (v.node p).kind = .join .notStarted
        ∧ ∃ strategy, stage.built? = some (hashSetKey v.jobId (v.outputOf p) strategy) := by
  have crossed_builds : ∀ {next draft prev id hashSet strategy c},
      v.Crosses next draft prev id hashSet strategy c → stage ∉ c.stages := by
    intro next draft prev id hashSet strategy c crosses inside
    cases crosses with
    | broadcast => simp at inside
    | split found finished sink splits =>
        rw [List.mem_singleton.mp inside] at builds
        simp [Stage.isBuild] at builds
  induction pipeline with
  | @ends next draft prev id segment ending =>
      cases ending.shape with
      | single carries whole =>
          rw [whole] at member
          rw [List.mem_singleton.mp member] at builds
          simp [Stage.isBuild] at builds
      | merged kind carries whole =>
          rw [whole] at member
          rcases List.mem_pair.mp member with rfl | rfl <;> simp [Stage.isBuild] at builds
      | @built first build name strategy hashSet kind carries made starts whole =>
          rw [whole] at member
          rcases List.mem_pair.mp member with rfl | rfl
          · simp [Stage.isBuild] at builds
          · exact ⟨id, by simp, kind, strategy, made.builds.trans (congrArg some made.key)⟩
  | pass kind active rest ih =>
      obtain ⟨p, onPath, found⟩ := ih member
      exact ⟨p, List.mem_cons_of_mem _ onPath, found⟩
  | cross started crossed active rest ih =>
      rcases List.mem_append.mp member with before | later
      · exact absurd before (crossed_builds (crosses_of_crossing crossed))
      · obtain ⟨p, onPath, found⟩ := ih later
        exact ⟨p, List.mem_cons_of_mem _ onPath, found⟩
  | gather started crossed shared made =>
      rcases List.mem_append.mp member with before | later
      · exact absurd before (crossed_builds (crosses_of_crossing crossed))
      · obtain ⟨first, carries, whole⟩ := materialize_carries made
        rw [whole] at later
        rw [List.mem_singleton.mp later] at builds
        simp [Stage.isBuild] at builds

end View

end DataflowPlan
