import DataflowPlan.Proofs.Analysis.JoinStages

/-! Data on its way through a pipeline. The first stage reads the set that the pipeline starts from,
every later one exactly what the stage just before it wrote, and what later pipelines can start from
is written last.
-/

namespace DataflowPlan

/-- The later stage reads the set that the earlier one writes, with its page size and its kind. -/
def Stage.Feeds (stage later : Stage) : Prop :=
  stage.sink? = some later.source

/-- The stages pass the data of the set on, each one to the next, and the last one writes what later
pipelines can start from.
-/
structure Segment.Relays (s : Segment) (set : SetId) : Prop where
  starts : ∃ stage, s.stages.head? = some stage ∧ stage.source = set
  links : s.stages.IsChain Stage.Feeds
  leaves
    : ∀ id made,
        s.newSource = some (id, made) →
          ∃ stage, s.stages.getLast? = some stage ∧ stage.sink? = some made

namespace View

variable {v : View} {next : StageId} {draft : TupleSetDraft} {prev id : NodeId}
  {segment : Segment} {path : List NodeId} {hashSet : String} {set : SetId}

/-- A segment of one stage, which writes what is read on. -/
theorem relays_one {stage : TupleSetStage} {sets : List SetId}
    {newSource : Option (NodeId × SetId)} {changes : List Change} (source : stage.source = set)
    (writes : ∀ id made, newSource = some (id, made) → made = stage.sink)
    : Segment.Relays ⟨[.tupleSet stage], sets, newSource, changes⟩ set := by
  refine ⟨⟨_, rfl, source⟩, List.isChain_singleton _, fun id made new => ⟨_, rfl, ?_⟩⟩
  exact congrArg some (writes id made new).symm

/-- A segment of two stages, of which the second one writes what is read on. -/
theorem relays_two {stage : TupleSetStage} {second : Stage} {sets : List SetId}
    {newSource : Option (NodeId × SetId)} {changes : List Change} (source : stage.source = set)
    (reads : second.source = stage.sink)
    (writes : ∀ id made, newSource = some (id, made) → second.sink? = some made)
    : Segment.Relays ⟨[.tupleSet stage, second], sets, newSource, changes⟩ set := by
  refine ⟨⟨_, rfl, source⟩, ?_, fun id made new => ⟨_, rfl, writes id made new⟩⟩
  exact List.isChain_pair.mpr (congrArg some reads.symm)

theorem materialize_relays (made : v.materialize next draft prev id = .ok segment)
    (source : draft.source = some set)
    : segment.Relays set := by
  obtain ⟨c, place, stage, -, -, finished, rfl⟩ := materialize_eq_ok made
  refine relays_one (Option.some.inj (finished.source.symm.trans source)) ?_
  rintro _ _ ⟨⟩
  exact Option.some.inj finished.sink

theorem partition_relays (made : v.partition next draft prev id = .ok segment)
    (source : draft.source = some set)
    : segment.Relays set := by
  obtain ⟨c, place, stage, -, -, finished, rfl⟩ := partition_eq_ok made
  refine relays_one (Option.some.inj (finished.source.symm.trans source)) fun id set new => ?_
  split at new
  · obtain ⟨rfl, rfl⟩ := Prod.mk.inj (Option.some.inj new)
    exact Option.some.inj finished.sink
  · simp at new

/-- The merging of an aggregate reads the shuffled data, and writes the aggregate. -/
theorem aggregate_relays (made : v.aggregate next draft prev id = .ok segment)
    (source : draft.source = some set)
    : segment.Relays set := by
  obtain ⟨c, place, materialized, shuffle, merge, -, -, finished, rfl, rfl⟩ :=
    aggregate_eq_ok made
  refine relays_two (Option.some.inj (finished.source.symm.trans source))
    (Option.some.inj finished.sink) fun id set new => ?_
  split at new
  · obtain ⟨rfl, rfl⟩ := Prod.mk.inj (Option.some.inj new)
    rfl
  · simp at new

/-- The hash table of a join is built of what the stage just before wrote. -/
theorem joinBuild_relays (kind : (v.node id).kind = .join .notStarted)
    (made : v.joinBuild next draft prev id = .ok segment) (source : draft.source = some set)
    : segment.Relays set := by
  have unsourced : segment.newSource = none := by
    obtain ⟨c, stage, -, -, rfl⟩ := joinBuild_eq_ok made
    rfl
  cases joinBuild_shape kind made with
  | single carries whole =>
      obtain ⟨c, stage, -, -, rfl⟩ := joinBuild_eq_ok made
      simp [buildSegment] at whole
  | merged other => simp [kind] at other
  | built _ carries builds _ whole =>
      obtain ⟨stages, sets, newSource, changes⟩ := segment
      obtain rfl : stages = _ := whole
      obtain rfl : newSource = none := unsourced
      exact relays_two (Option.some.inj (carries.source.symm.trans source)) builds.reads (by simp)

theorem Ends.relays (ending : v.Ends next draft prev id segment)
    (source : draft.source = some set)
    : segment.Relays set := by
  cases ending with
  | output kind unread made =>
      obtain ⟨c, sink, stage, -, -, finished, rfl⟩ := output_eq_ok made
      exact relays_one (Option.some.inj (finished.source.symm.trans source)) (by simp)
  | materialize kind shared made => exact materialize_relays made source
  | aggregate kind made => exact aggregate_relays made source
  | partition kind made => exact partition_relays made source
  | build kind read accepted made => exact joinBuild_relays kind made source

/-- A crossing that splits the data is fed from the set, and feeds what follows it. -/
theorem Crosses.relays {strategy : JoinStrategy} {c : Crossing}
    (crosses : v.Crosses next draft prev id hashSet strategy c) (source : draft.source = some set)
    (later : ∀ mid, c.draft.source = some mid → segment.Relays mid)
    : (segment.across c).Relays set := by
  cases crosses with
  | broadcast =>
      obtain ⟨starts, links, leaves⟩ := later set source
      exact ⟨starts, links, leaves⟩
  | @split c stage found finished sink splits =>
      have carries := carries_of_finished finished rfl rfl
      obtain ⟨⟨first, head, reads⟩, links, leaves⟩ := later stage.sink (congrArg some sink.symm)
      obtain ⟨rest, whole⟩ := List.head?_eq_some_iff.mp head
      refine ⟨⟨_, rfl, Option.some.inj (carries.source.symm.trans source)⟩, ?_, ?_⟩
      · refine List.isChain_cons.mpr ⟨?_, links⟩
        intro second here
        obtain rfl := Option.some.inj (head.symm.trans here)
        exact congrArg some reads.symm
      · intro id made new
        obtain ⟨last, final, writes⟩ := leaves id made new
        refine ⟨last, ?_, writes⟩
        rw [Segment.across, List.singleton_append, whole, List.getLast?_cons_cons, ← whole]
        exact final

/-- A pipeline passes the data on that its draft starts from.
Witness: induction on the pipeline, whose draft starts from what the last split has written.
-/
theorem Pipeline.relays (pipeline : v.Pipeline next draft prev path segment)
    (source : draft.source = some set)
    : segment.Relays set := by
  induction pipeline generalizing set with
  | ends ending => exact ending.relays source
  | pass kind active rest ih =>
      obtain ⟨starts, links, leaves⟩ := ih source
      exact ⟨starts, links, leaves⟩
  | cross started crossed active rest ih =>
      exact (crosses_of_crossing crossed).relays source fun _ starts => ih starts
  | gather started crossed shared made =>
      exact (crosses_of_crossing crossed).relays source fun _ => materialize_relays made

end View

end DataflowPlan
