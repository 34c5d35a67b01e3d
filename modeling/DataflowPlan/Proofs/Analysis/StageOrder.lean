import DataflowPlan.Proofs.Analysis.Course
import DataflowPlan.Proofs.Plan.Order

/-! The order of the stages of one pipeline. What a pipeline reads was there before it set out, or
is written by the stage that it leaves just before; what it probes was built earlier, as only joins
that are started are crossed.
-/

namespace DataflowPlan

theorem Table.mem_values_insert {α : Type} {table : Table α} {key : String} {value other : α}
    (member : other ∈ (table.insert key value).values)
    : other = value ∨ other ∈ table.values := by
  obtain ⟨entry, inserted, rfl⟩ := List.mem_map.mp member
  rcases mem_insertEntry inserted with rfl | before
  · exact .inl rfl
  · exact .inr (List.mem_map_of_mem before)

/-- A join that is started after changes was started before, or one of them starts it. -/
theorem isStarted_foldl {changes : List Change} {t : Topology} {p : NodeId}
    {strategy : JoinStrategy} {hashSet : String}
    (started
      : ((changes.foldl Change.apply t).arena.node p).IsStarted strategy hashSet)
    : (t.arena.node p).IsStarted strategy hashSet
      ∨ ∃ name, .startJoin p name strategy hashSet ∈ changes := by
  induction changes generalizing t with
  | nil => exact .inl started
  | cons change rest ih =>
      rcases ih started with first | ⟨name, later⟩
      · by_cases starts : change.Starts p
        · cases change with
          | consume node => exact starts.elim
          | redirect computation database name => exact starts.elim
          | startJoin node computation made built =>
              obtain rfl : node = p := starts
              simp only [Change.apply, Arena.setJoin, Arena.node_modify] at first
              split at first
              · simp only [PhysicalNode.IsStarted, NodeKind.join.injEq, JoinState.started.injEq]
                  at first
                obtain ⟨rfl, rfl⟩ := first
                exact .inr ⟨computation, by simp⟩
              · exact .inl first
        · rw [PhysicalNode.IsStarted, Change.kind_apply t starts] at first
          exact .inl first
      · exact .inr ⟨name, List.mem_cons_of_mem _ later⟩

theorem Segment.isStarted_apply {s : Segment} {t : Topology} {p : NodeId}
    {strategy : JoinStrategy} {hashSet : String}
    (started : ((s.apply t).arena.node p).IsStarted strategy hashSet)
    : (t.arena.node p).IsStarted strategy hashSet
      ∨ ∃ name, .startJoin p name strategy hashSet ∈ s.changes := by
  refine isStarted_foldl ?_
  rcases s.node_apply t p with same | ⟨set, -, changed⟩
  · rwa [same] at started
  · rwa [changed] at started

/-- What a segment leaves to later ones, behind stages that are planned before: its stages go on in
order, its new source can be read, and the joins that it starts are built.
-/
structure Segment.Settles (segment : Segment) (next : StageId) (stages : List Stage) : Prop where
  ordered : InOrder (stages ++ segment.stages)
  below : ∀ stage ∈ segment.stages, stage.id < next.skip segment.stages.length
  source
    : ∀ id set,
        segment.newSource = some (id, set) → set.ReadableAfter (stages ++ segment.stages)
  joins
    : ∀ p name strategy hashSet,
        .startJoin p name strategy hashSet ∈ segment.changes →
          BuiltBy (stages ++ segment.stages) hashSet

namespace View

/-- What a pipeline on its way can rely on: the stages so far are in order and numbered below its
own, they left what it reads and built what it probes, and what it may probe further on.
-/
structure Relies (v : View) (next : StageId) (draft : TupleSetDraft) (stages : List Stage)
    : Prop where
  ordered : InOrder stages
  below : ∀ stage ∈ stages, stage.id < next
  source : ∀ set, draft.source = some set → set.ReadableAfter stages
  probes : ∀ hashSet ∈ draft.probes.values, BuiltBy stages hashSet
  joins
    : ∀ p strategy hashSet,
        (v.node p).IsStarted strategy hashSet → BuiltBy stages hashSet

variable {v : View} {next : StageId} {draft : TupleSetDraft} {prev id : NodeId}
  {stages : List Stage} {segment : Segment}

/-- The stage that a pipeline ends with can come next. -/
theorem Relies.follows (relies : v.Relies next draft stages) {d : TupleSetDraft}
    {stage : TupleSetStage} (finished : d.Finished stage) (numbered : d.stageId = some next)
    (source : d.source = draft.source) (probes : d.probes = draft.probes)
    : stage.id = next ∧ (Stage.tupleSet stage).Follows stages := by
  have number : stage.id = next := Option.some.inj (finished.id.symm.trans numbered)
  refine ⟨number, ?_, ?_, ?_⟩
  · intro earlier member
    have below := relies.below earlier member
    rwa [← number] at below
  · exact relies.source stage.source (source ▸ finished.source)
  · intro hashSet member
    rw [Stage.probed, finished.probes] at member
    split at member
    · exact relies.probes hashSet (probes ▸ member)
    · simp at member

/-- An ending in one stage, which writes what is read on. -/
theorem settles_one {stage : TupleSetStage} (ordered : InOrder stages)
    (follows : stage.id = next ∧ (Stage.tupleSet stage).Follows stages)
    {changes : List Change} {sets : List SetId} {newSource : Option (NodeId × SetId)}
    (writes : ∀ id set, newSource = some (id, set) → set.key = stage.sink.key)
    (keeps : ∀ p name strategy hashSet, .startJoin p name strategy hashSet ∉ changes)
    : Segment.Settles ⟨[.tupleSet stage], sets, newSource, changes⟩ next stages := by
  refine ⟨ordered.concat follows.2, ?_, ?_, ?_⟩
  · intro other member
    rw [List.mem_singleton.mp member]
    exact Nat.lt_of_le_of_lt (Nat.le_of_eq (congrArg StageId.number follows.1)) (Nat.lt_succ_self _)
  · intro id set new
    exact .inr ⟨.tupleSet stage, by simp, stage.sink, rfl, (writes id set new).symm⟩
  · intro p name strategy hashSet member
    exact absurd member (keeps p name strategy hashSet)

/-- An ending in two stages, of which the second reads what the first one writes. -/
theorem settles_two {stage : TupleSetStage} {last : Stage} (ordered : InOrder stages)
    (follows : stage.id = next ∧ (Stage.tupleSet stage).Follows stages)
    (id : last.id = next.next) (source : last.source.key = stage.sink.key)
    (probes : last.probed = []) {changes : List Change} {sets : List SetId}
    {newSource : Option (NodeId × SetId)}
    (writes : ∀ id set, newSource = some (id, set) → last.Writes set.key)
    (builds
      : ∀ p name strategy hashSet,
          .startJoin p name strategy hashSet ∈ changes → last.built? = some hashSet)
    : Segment.Settles ⟨[.tupleSet stage, last], sets, newSource, changes⟩ next stages := by
  have first : stage.id.number = next.number := congrArg StageId.number follows.1
  have second : last.id.number = next.number + 1 := congrArg StageId.number id
  have lastFollows : last.Follows (stages ++ [.tupleSet stage]) := by
    refine ⟨?_, .inr ⟨.tupleSet stage, by simp, stage.sink, rfl, source.symm⟩, by simp [probes]⟩
    intro earlier member
    change earlier.id.number < last.id.number
    rcases List.mem_append.mp member with before | same
    · have := follows.2.id earlier before
      change earlier.id.number < stage.id.number at this
      omega
    · rw [List.mem_singleton.mp same]
      change stage.id.number < last.id.number
      omega
  have whole : stages ++ [.tupleSet stage, last] = stages ++ [.tupleSet stage] ++ [last] := by
    simp
  refine ⟨?_, ?_, ?_, ?_⟩
  · rw [whole]
    exact (ordered.concat follows.2).concat lastFollows
  · intro other member
    change other.id.number < next.number + 2
    rcases List.mem_cons.mp member with rfl | same
    · change stage.id.number < next.number + 2
      omega
    · rw [List.mem_singleton.mp same]
      omega
  · intro id set new
    exact .inr ⟨last, by simp, writes id set new⟩
  · intro p name strategy hashSet member
    exact ⟨last, by simp, builds p name strategy hashSet member⟩

/-- Placing an output starts no join. -/
theorem Placed.starts_none (placed : v.Placed id segment)
    : ∀ p name strategy hashSet, .startJoin p name strategy hashSet ∉ segment.changes := by
  intro p name strategy hashSet member
  obtain ⟨other, same⟩ := placed.redirects _ member
  simp at same

theorem materialize_settles (relies : v.Relies next draft stages)
    (made : v.materialize next draft prev id = .ok segment)
    : segment.Settles next stages := by
  have none := (placed_of_materialize made).starts_none
  obtain ⟨c, place, stage, -, -, finished, rfl⟩ := materialize_eq_ok made
  refine settles_one relies.ordered (relies.follows finished rfl rfl rfl) ?_ none
  rintro _ _ ⟨⟩
  exact congrArg SetId.key (Option.some.inj finished.sink)

theorem aggregate_settles (relies : v.Relies next draft stages)
    (kind : (v.node id).kind = .aggregation)
    (made : v.aggregate next draft prev id = .ok segment)
    : segment.Settles next stages := by
  have none := (placed_of_aggregate kind made).starts_none
  obtain ⟨c, place, materialized, shuffle, merge, -, -, finished, rfl, rfl⟩ :=
    aggregate_eq_ok made
  refine settles_two relies.ordered (relies.follows finished rfl rfl rfl) rfl ?_ rfl ?_ ?_
  · exact congrArg SetId.key (Option.some.inj finished.sink)
  · intro id set new
    split at new
    · obtain ⟨rfl, rfl⟩ := Prod.mk.inj (Option.some.inj new)
      exact ⟨place.sink, rfl, rfl⟩
    · simp at new
  · intro p name strategy hashSet member
    exact absurd member (none p name strategy hashSet)

theorem partition_settles (relies : v.Relies next draft stages)
    (made : v.partition next draft prev id = .ok segment)
    : segment.Settles next stages := by
  have none := (placed_of_partition made).starts_none
  obtain ⟨c, place, stage, -, -, finished, rfl⟩ := partition_eq_ok made
  refine settles_one relies.ordered (relies.follows finished rfl rfl rfl) ?_ none
  intro id set new
  split at new
  · obtain ⟨rfl, rfl⟩ := Prod.mk.inj (Option.some.inj new)
    exact congrArg SetId.key (Option.some.inj finished.sink)
  · simp at new

theorem joinBuild_settles (relies : v.Relies next draft stages)
    (made : v.joinBuild next draft prev id = .ok segment)
    : segment.Settles next stages := by
  obtain ⟨c, stage, -, finished, rfl⟩ := joinBuild_eq_ok made
  have follows : stage.id = next ∧ (Stage.tupleSet stage).Follows stages := by
    refine relies.follows finished ?_ ?_ ?_ <;>
      · unfold buildDraft
        cases v.strategyFor draft <;> rfl
  have sink := finished.sink
  unfold buildSegment buildStage
  unfold buildDraft at sink
  cases strategy : v.strategyFor draft with
  | hashPartitioned | broadcast =>
      simp only [strategy] at sink
      refine settles_two relies.ordered follows rfl ?_ rfl (by simp) ?_
      · exact congrArg SetId.key (Option.some.inj sink)
      intro p name made hashSet member
      obtain ⟨rfl, rfl, rfl, rfl⟩ := Change.startJoin.inj (List.mem_singleton.mp member)
      rfl

theorem Ends.settles (relies : v.Relies next draft stages)
    (ending : v.Ends next draft prev id segment)
    : segment.Settles next stages := by
  cases ending with
  | output kind unread made =>
      obtain ⟨c, sink, stage, -, -, finished, rfl⟩ := output_eq_ok made
      exact settles_one relies.ordered (relies.follows finished rfl rfl rfl) (by simp) (by simp)
  | materialize kind shared made => exact materialize_settles relies made
  | aggregate kind made => exact aggregate_settles relies kind made
  | partition kind made => exact partition_settles relies made
  | build kind read accepted made => exact joinBuild_settles relies made

/-- A pipeline that has crossed a join can rely on the stages before and what the crossing left. -/
theorem Relies.crossing (relies : v.Relies next draft stages) {strategy : JoinStrategy}
    {hashSet : String} {c : Crossing} (started : (v.node id).IsStarted strategy hashSet)
    (crossed : v.crossing next draft prev id strategy hashSet = .ok c)
    : v.Relies c.next c.draft (stages ++ c.stages)
      ∧ ∀ stage ∈ c.stages, stage.id < c.next := by
  have built := relies.joins id strategy hashSet started
  cases crosses_of_crossing crossed with
  | broadcast =>
      refine ⟨?_, by simp⟩
      simp only [List.append_nil]
      refine ⟨relies.ordered, relies.below, relies.source, ?_, relies.joins⟩
      intro other member
      rcases Table.mem_values_insert member with rfl | before
      · exact built
      · exact relies.probes other before
  | @split c closed found finished sink splits =>
      obtain ⟨number, follows⟩ := relies.follows finished rfl rfl rfl
      have first : ∀ other ∈ [Stage.tupleSet closed], other.id < next.next := by
        intro other member
        rw [List.mem_singleton.mp member]
        exact Nat.lt_of_le_of_lt (Nat.le_of_eq (congrArg StageId.number number))
          (Nat.lt_succ_self _)
      refine ⟨⟨relies.ordered.concat follows, ?_, ?_, ?_, ?_⟩, first⟩
      · intro other member
        rcases List.mem_append.mp member with before | last
        · exact Nat.lt_succ_of_lt (relies.below other before)
        · exact first other last
      · rintro set ⟨⟩
        exact .inr ⟨.tupleSet closed, by simp, closed.sink, rfl, congrArg SetId.key sink⟩
      · intro other member
        rcases Table.mem_values_insert member with rfl | before
        · exact built.append _
        · simp [Table.values, EmptyCollection.emptyCollection] at before
      · intro p strategy hashSet started
        exact (relies.joins p strategy hashSet started).append _

theorem settles_across {strategy : JoinStrategy} {hashSet : String} {c : Crossing}
    (crossed : v.crossing next draft prev id strategy hashSet = .ok c)
    (numbered : ∀ stage ∈ c.stages, stage.id < c.next)
    (settles : segment.Settles c.next (stages ++ c.stages))
    : (segment.across c).Settles next stages := by
  have whole : stages ++ (segment.across c).stages = stages ++ c.stages ++ segment.stages := by
    simp [Segment.across]
  refine ⟨whole ▸ settles.ordered, ?_, whole ▸ settles.source, whole ▸ settles.joins⟩
  intro stage member
  rw [← skip_across crossed segment]
  rcases List.mem_append.mp member with before | later
  · exact Nat.lt_of_lt_of_le (numbered stage before) (Nat.le_add_right _ _)
  · exact settles.below stage later

/-- The stages of a pipeline go on in order.
Witness: induction on the pipeline, along which what it relies on grows by what each crossing
leaves.
-/
theorem Pipeline.settles {path : List NodeId}
    (pipeline : v.Pipeline next draft prev path segment) (relies : v.Relies next draft stages)
    : segment.Settles next stages := by
  induction pipeline generalizing stages with
  | ends ending => exact ending.settles relies
  | pass kind active rest ih =>
      obtain ⟨ordered, below, source, joins⟩ :=
        ih ⟨relies.ordered, relies.below, relies.source, relies.probes, relies.joins⟩
      refine ⟨ordered, below, source, ?_⟩
      intro p name strategy hashSet member
      rcases List.mem_append.mp member with starts | consumed
      · exact joins p name strategy hashSet starts
      · simp at consumed
  | cross started crossed active rest ih =>
      obtain ⟨further, numbered⟩ := relies.crossing started crossed
      exact settles_across crossed numbered (ih further)
  | gather started crossed shared made =>
      obtain ⟨further, numbered⟩ := relies.crossing started crossed
      exact settles_across crossed numbered (materialize_settles further made)

end View

end DataflowPlan
