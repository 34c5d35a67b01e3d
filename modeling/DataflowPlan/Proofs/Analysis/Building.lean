import DataflowPlan.Proofs.Analysis.Itinerary

/-! Building: a planned pipeline builds the hash tables of the joins that it starts, each in the way
that is recorded with the join's computation. A computation keeps the way of the table that was
built last for it.
-/

namespace DataflowPlan

/-- The computation for whose join the stage builds a hash table, and the way in which. -/
def Stage.building? : Stage → Option (String × JoinStrategy)
  | .broadcastBuild s => some (s.targetComputation, .broadcast)
  | .partitionedBuild s => some (s.targetComputation, .hashPartitioned)
  | .tupleSet _ | .aggregation _ => none

/-- The computation whose join the change starts, and the way in which. -/
def Change.building? : Change → Option (String × JoinStrategy)
  | .startJoin _ computation strategy _ => some (computation, strategy)
  | .consume _ | .redirect _ _ _ => none

/-- The tables that the stages build, in order. -/
def buildings (stages : List Stage) : List (String × JoinStrategy) :=
  stages.filterMap Stage.building?

/-- The way of the table that was built last for the computation. -/
def lastBuilt (name : String) (built : List (String × JoinStrategy)) : Option JoinStrategy :=
  (built.filter (·.1 == name)).getLast?.map Prod.snd

theorem lastBuilt_append (name : String) (before later : List (String × JoinStrategy))
    : lastBuilt name (before ++ later) = (lastBuilt name later).or (lastBuilt name before) := by
  rw [lastBuilt, lastBuilt, lastBuilt, List.filter_append, List.getLast?_append]
  cases (later.filter (·.1 == name)).getLast? <;> rfl

/-- What was built last was built. -/
theorem mem_of_lastBuilt {name : String} {built : List (String × JoinStrategy)}
    {strategy : JoinStrategy} (last : lastBuilt name built = some strategy)
    : (name, strategy) ∈ built := by
  obtain ⟨⟨own, _⟩, isLast, rfl⟩ := Option.map_eq_some_iff.mp last
  obtain ⟨member, same⟩ := List.mem_filter.mp (List.mem_of_getLast? isLast)
  obtain rfl : own = name := by simpa using same
  exact member

theorem exists_lastBuilt {name : String} {built : List (String × JoinStrategy)}
    {strategy : JoinStrategy} (member : (name, strategy) ∈ built)
    : ∃ last, lastBuilt name built = some last := by
  have listed : (name, strategy) ∈ built.filter (·.1 == name) :=
    List.mem_filter.mpr ⟨member, by simp⟩
  cases isLast : (built.filter (·.1 == name)).getLast? with
  | none => simp [List.getLast?_eq_none_iff.mp isLast] at listed
  | some entry => exact ⟨entry.2, by rw [lastBuilt, isLast]; rfl⟩

/-- The computation carries the way of the table that was built last for it, or else the way that it
was given with.
-/
structure Computation.Records (c given : Computation) (name : String)
    (built : List (String × JoinStrategy)) : Prop where
  strategy : c.joinStrategy = (lastBuilt name built).or given.joinStrategy
  partitioning
    : c.partitioningLhs
      = ((lastBuilt name built).map (· == .hashPartitioned)).getD given.partitioningLhs

namespace Computation.Records

variable {c d given : Computation} {name : String} {before later : List (String × JoinStrategy)}

theorem refl (c : Computation) (name : String) : c.Records c name [] := ⟨rfl, rfl⟩

theorem trans (records : c.Records d name later) (earlier : d.Records given name before)
    : c.Records given name (before ++ later) := by
  refine ⟨?_, ?_⟩
  · rw [records.strategy, earlier.strategy, lastBuilt_append, Option.or_assoc]
  · rw [records.partitioning, earlier.partitioning, lastBuilt_append]
    cases lastBuilt name later <;> rfl

end Computation.Records

/-- The computation's record says that its join is carried out in the way of the strategy. -/
def Computation.RecordsJoin (c : Computation) (strategy : JoinStrategy) : Prop :=
  c.joinStrategy = some strategy ∧ c.partitioningLhs = (strategy == .hashPartitioned)

instance (c : Computation) (strategy : JoinStrategy) : Decidable (c.RecordsJoin strategy) :=
  inferInstanceAs (Decidable (_ ∧ _))

theorem Computation.Records.recordsJoin {c given : Computation} {name : String}
    {built : List (String × JoinStrategy)} {last : JoinStrategy}
    (records : c.Records given name built) (isLast : lastBuilt name built = some last)
    : c.RecordsJoin last := by
  refine ⟨?_, ?_⟩
  · rw [records.strategy, isLast, Option.some_or]
  · rw [records.partitioning, isLast]
    rfl

-----------------------------------------------------------------------------------------------
-- Changes
-----------------------------------------------------------------------------------------------

/-- A change records with a computation the table that it goes with, if it is the computation's. -/
theorem Change.records (change : Change) (t : Topology) {name : String} {d : Computation}
    (found : t.graph.computation name = .ok d)
    : ∃ c,
        (change.apply t).graph.computation name = .ok c
        ∧ c.Records d name change.building?.toList := by
  cases change with
  | consume node => exact ⟨d, found, .refl d name⟩
  | redirect computation database set =>
      refine ⟨_, Graph.computation_modify found _ _, ?_⟩
      split <;> exact ⟨rfl, rfl⟩
  | startJoin node computation strategy hashSet =>
      refine ⟨_, Graph.computation_modify found _ _, ?_⟩
      by_cases own : name = computation
      · subst own
        simp only [if_true]
        exact ⟨by simp [building?, lastBuilt, Computation.setStrategy],
          by simp [building?, lastBuilt, Computation.setStrategy]⟩
      · rw [if_neg own]
        have other : ¬ computation = name := fun same => own same.symm
        exact ⟨by simp [building?, lastBuilt, other], by simp [building?, lastBuilt, other]⟩

theorem records_foldl (changes : List Change) (t : Topology) {name : String} {d : Computation}
    (found : t.graph.computation name = .ok d)
    : ∃ c,
        (changes.foldl Change.apply t).graph.computation name = .ok c
        ∧ c.Records d name (changes.filterMap Change.building?) := by
  induction changes generalizing t d with
  | nil => exact ⟨d, found, .refl d name⟩
  | cons change rest ih =>
      obtain ⟨e, there, first⟩ := change.records t found
      obtain ⟨c, after, later⟩ := ih (change.apply t) there
      have whole : (change :: rest).filterMap Change.building?
          = change.building?.toList ++ rest.filterMap Change.building? := by
        cases here : change.building? <;> simp [here]
      exact ⟨c, after, whole ▸ later.trans first⟩

namespace View

variable {v : View} {next reached : StageId} {draft : TupleSetDraft} {prev id source last : NodeId}
  {init : List NodeId} {segment : Segment} {strategy : JoinStrategy} {hashSet : String}

-----------------------------------------------------------------------------------------------
-- Pipelines
-----------------------------------------------------------------------------------------------

/-- The stages build tables for the joins that the changes start. -/
def BuildsStarted (segment : Segment) : Prop :=
  buildings segment.stages = segment.changes.filterMap Change.building?

namespace BuildsStarted

/-- Nothing is started where the output is placed, so no stage may build a table. -/
theorem of_placed (placed : v.Placed id segment) (none : buildings segment.stages = [])
    : BuildsStarted segment := by
  rw [BuildsStarted, none, eq_comm, List.filterMap_eq_nil_iff]
  intro change member
  obtain ⟨_, rfl⟩ := placed.redirects change member
  rfl

theorem of_materialize (made : v.materialize next draft prev id = .ok segment)
    : BuildsStarted segment := by
  have placed := placed_of_materialize made
  obtain ⟨c, place, stage, -, -, -, rfl⟩ := materialize_eq_ok made
  exact of_placed placed rfl

theorem of_joinBuild (made : v.joinBuild next draft prev id = .ok segment)
    : BuildsStarted segment := by
  obtain ⟨c, stage, -, -, rfl⟩ := joinBuild_eq_ok made
  unfold BuildsStarted buildSegment buildStage
  cases v.strategyFor draft <;> rfl

theorem across {c : Crossing} (builds : BuildsStarted segment)
    (crossed : v.crossing next draft prev id strategy hashSet = .ok c)
    : BuildsStarted (segment.across c) := by
  have none : buildings c.stages = [] := by
    rcases crossing_cases crossed with ⟨none, -⟩ | ⟨stage, only, -⟩
    · rw [none]; rfl
    · rw [only]; rfl
  rw [BuildsStarted, Segment.across, buildings, List.filterMap_append]
  rw [buildings] at none
  rw [none]
  exact builds

theorem through (builds : BuildsStarted segment) (node : NodeId)
    : BuildsStarted (segment.through node) := by
  rw [BuildsStarted, Segment.through, List.filterMap_append]
  exact builds.trans (List.append_nil _).symm

end BuildsStarted

theorem Ends.buildsStarted (ending : v.Ends next draft prev id segment)
    : BuildsStarted segment := by
  cases ending with
  | output kind unread made =>
      obtain ⟨c, sink, stage, -, -, -, rfl⟩ := output_eq_ok made
      exact .of_placed (Placed.nowhere rfl rfl : v.Placed id _) rfl
  | materialize kind shared made => exact .of_materialize made
  | aggregate kind made =>
      refine .of_placed (placed_of_aggregate kind made) ?_
      obtain ⟨c, place, materialized, shuffle, merge, -, -, -, -, rfl⟩ := aggregate_eq_ok made
      rfl
  | partition kind made =>
      refine .of_placed (placed_of_partition made) ?_
      obtain ⟨c, place, stage, -, -, -, rfl⟩ := partition_eq_ok made
      rfl
  | build kind read accepted made => exact .of_joinBuild made

/-- The tables that a pipeline builds are those of the joins that it starts. -/
theorem Pipeline.buildsStarted {path : List NodeId}
    (pipeline : v.Pipeline next draft prev path segment)
    : BuildsStarted segment := by
  induction pipeline with
  | ends ending => exact ending.buildsStarted
  | pass kind active rest ih => exact ih.through _
  | cross started crossed active rest ih => exact ih.across crossed
  | gather started crossed shared made => exact (BuildsStarted.of_materialize made).across crossed

theorem buildsStarted_of_analyze
    (planned : v.analyze source next = ⟨reached, .planned segment⟩)
    : BuildsStarted segment := by
  obtain ⟨init, last, set, inner, -, -, pipeline, rfl⟩ := pipeline_of_analyze planned
  exact pipeline.buildsStarted.through source

end View

end DataflowPlan
