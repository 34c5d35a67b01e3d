import DataflowPlan.Proofs.Analysis.Ending

/-! Planned pipelines, node by node. A pipeline passes through steps with one consumer left, crosses
joins whose hash table is built, and ends in one of the ways that endings are made.
-/

namespace DataflowPlan

/-- The segment of a pipeline that came through the node. -/
def Segment.through (s : Segment) (node : NodeId) : Segment :=
  { s with changes := s.changes ++ [.consume node] }

/-- The segment of a pipeline that came across a join. -/
def Segment.across (s : Segment) (c : View.Crossing) : Segment :=
  { s with stages := c.stages ++ s.stages, intermediateSets := c.sets ++ s.intermediateSets }

/-- A join whose hash table is built. -/
def PhysicalNode.IsStarted (node : PhysicalNode) (strategy : JoinStrategy) (hashSet : String)
    : Prop :=
  node.kind = .join (.started strategy hashSet)

namespace View

/-- The pipeline that arrives at the node ends there. -/
inductive Ends (v : View) (next : StageId) (draft : TupleSetDraft) (prev id : NodeId)
    (segment : Segment) : Prop
  | output (kind : (v.node id).kind = .pipeline) (unread : (v.node id).active = [])
    (made : v.output next draft prev id = .ok segment)
  | materialize (kind : (v.node id).kind = .pipeline) (shared : 2 ≤ (v.node id).active.length)
    (made : v.materialize next draft prev id = .ok segment)
  | aggregate (kind : (v.node id).kind = .aggregation)
    (made : v.aggregate next draft prev id = .ok segment)
  | partition (kind : (v.node id).kind = .partition)
    (made : v.partition next draft prev id = .ok segment)
  | build (kind : (v.node id).kind = .join .notStarted) (read : (v.node id).active ≠ [])
    (accepted : v.isRefused draft = false)
    (made : v.joinBuild next draft prev id = .ok segment)

/-- A planned pipeline with the nodes that it came to, from the first one to the last. -/
inductive Pipeline (v : View)
    : StageId → TupleSetDraft → NodeId → List NodeId → Segment → Prop
  | ends {next draft prev id segment} (ending : v.Ends next draft prev id segment)
    : v.Pipeline next draft prev [id] segment
  | pass {next draft prev id consumer path segment} (kind : (v.node id).kind = .pipeline)
    (active : (v.node id).active = [consumer])
    (rest
      : v.Pipeline next (draft.addTupleSet (v.outputOf id)) id (consumer :: path) segment)
    : v.Pipeline next draft prev (id :: consumer :: path) (segment.through id)
  | cross {next draft prev id strategy hashSet c consumer path segment}
    (started : (v.node id).IsStarted strategy hashSet)
    (crossed : v.crossing next draft prev id strategy hashSet = .ok c)
    (active : (v.node id).active = [consumer])
    (rest : v.Pipeline c.next c.draft id (consumer :: path) segment)
    : v.Pipeline next draft prev (id :: consumer :: path) (segment.across c)
  | gather {next draft prev id strategy hashSet c segment}
    (started : (v.node id).IsStarted strategy hashSet)
    (crossed : v.crossing next draft prev id strategy hashSet = .ok c)
    (shared : 2 ≤ (v.node id).active.length)
    (made : v.materialize c.next c.draft prev id = .ok segment)
    : v.Pipeline next draft prev [id] (segment.across c)

variable {v : View} {next reached : StageId} {draft : TupleSetDraft} {prev id : NodeId}
  {segment : Segment}

theorem ofEnding_planned {made : Except Error Segment}
    (planned : Analysis.ofEnding next made = ⟨reached, .planned segment⟩)
    : made = .ok segment ∧ reached = next.skip segment.stages.length := by
  cases made with
  | error error => simp [Analysis.ofEnding] at planned
  | ok result =>
      simp only [Analysis.ofEnding, Analysis.mk.injEq, Verdict.planned.injEq] at planned
      obtain ⟨rfl, rfl⟩ := planned
      exact ⟨rfl, rfl⟩

/-- A changed analysis plans what the change makes of the planned segment. -/
theorem mapSegment_planned {a : Analysis} {change : Segment → Segment}
    (planned : a.mapSegment change = ⟨reached, .planned segment⟩)
    : ∃ inner, a = ⟨reached, .planned inner⟩ ∧ segment = change inner := by
  obtain ⟨here, verdict⟩ := a
  cases verdict with
  | planned inner =>
      simp only [Analysis.mapSegment, Analysis.mk.injEq, Verdict.planned.injEq] at planned
      obtain ⟨rfl, rfl⟩ := planned
      exact ⟨inner, rfl, rfl⟩
  | refused => simp [Analysis.mapSegment] at planned
  | failed error => simp [Analysis.mapSegment] at planned

/-- A pipeline that is passed through runs on to the next consumer. -/
theorem passThrough_planned {follow : Continuation}
    (planned : v.passThrough follow next draft id = ⟨reached, .planned segment⟩)
    : ∃ consumer rest inner,
        (v.node id).active = consumer :: rest
        ∧ follow next (draft.addTupleSet (v.outputOf id)) id consumer
          = ⟨reached, .planned inner⟩
        ∧ segment = inner.through id := by
  unfold passThrough at planned
  cases active : (v.node id).active with
  | nil => simp [active] at planned
  | cons consumer rest =>
      rw [active] at planned
      obtain ⟨inner, followed, rfl⟩ := mapSegment_planned planned
      exact ⟨consumer, rest, inner, rfl, followed, rfl⟩

/-- A probing pipeline runs on to the only consumer, or ends for several. -/
theorem joinProbe_planned {follow : Continuation}
    (planned : v.joinProbe follow next draft prev id = ⟨reached, .planned segment⟩)
    : (∃ consumer,
          (v.node id).active = [consumer]
          ∧ follow next draft id consumer = ⟨reached, .planned segment⟩)
      ∨ (2 ≤ (v.node id).active.length
          ∧ v.materialize next draft prev id = .ok segment
          ∧ reached = next.skip segment.stages.length) := by
  unfold joinProbe at planned
  cases active : (v.node id).active with
  | nil => simp [active] at planned
  | cons consumer others =>
      rw [active] at planned
      cases others with
      | nil => exact .inl ⟨consumer, rfl, planned⟩
      | cons other rest =>
          obtain ⟨made, rfl⟩ := ofEnding_planned planned
          exact .inr ⟨by simp, made, rfl⟩

/-- A started join is crossed by a pipeline that then probes its hash table.
Witness: a broadcast one leaves nothing before it, a partitioned one the stage that splits it.
-/
theorem join_started {follow : Continuation} {strategy : JoinStrategy} {hashSet : String}
    (started : (v.node id).IsStarted strategy hashSet)
    (planned : v.join follow next draft prev id = ⟨reached, .planned segment⟩)
    : ∃ c inner,
        v.crossing next draft prev id strategy hashSet = .ok c
        ∧ v.joinProbe follow c.next c.draft prev id = ⟨reached, .planned inner⟩
        ∧ segment = inner.across c := by
  have state : (v.node id).join?.getD .notStarted = .started strategy hashSet := by
    rw [PhysicalNode.join?, started]
    rfl
  unfold join at planned
  by_cases read : (v.node id).hasConsumers = true
  · simp only [read, Bool.not_true, Bool.false_eq_true, if_false, state] at planned
    cases strategy with
    | broadcast => exact ⟨_, segment, rfl, planned, rfl⟩
    | hashPartitioned =>
        cases split : v.splitProbe next draft prev id hashSet with
        | error error => simp [split] at planned
        | ok parts =>
            obtain ⟨stage, data, probe⟩ := parts
            simp only [split] at planned
            obtain ⟨inner, probed, rfl⟩ := mapSegment_planned planned
            exact ⟨⟨[stage], [data], next.next, probe⟩, inner, by simp [crossing, split], probed,
              rfl⟩
  · simp [read] at planned

/-- A join that is not started is built, if it has consumers and does not refuse. -/
theorem join_notStarted {follow : Continuation} (kind : (v.node id).kind = .join .notStarted)
    (planned : v.join follow next draft prev id = ⟨reached, .planned segment⟩)
    : v.Ends next draft prev id segment ∧ reached = next.skip segment.stages.length := by
  have state : (v.node id).join?.getD .notStarted = .notStarted := by
    rw [PhysicalNode.join?, kind]
    rfl
  unfold join at planned
  by_cases read : (v.node id).hasConsumers = true
  · simp only [read, Bool.not_true, Bool.false_eq_true, if_false, state] at planned
    by_cases refused : v.isRefused draft = true
    · simp [refused] at planned
    · rw [if_neg refused] at planned
      obtain ⟨made, rfl⟩ := ofEnding_planned planned
      refine ⟨.build kind ?_ (by simpa using refused) made, rfl⟩
      intro none
      simp [PhysicalNode.hasConsumers, none] at read
  · simp [read] at planned

/-- What the crossing leaves takes the stage identifiers before the ones of the rest. -/
theorem skip_across {strategy : JoinStrategy} {hashSet : String} {c : Crossing}
    (crossed : v.crossing next draft prev id strategy hashSet = .ok c) (inner : Segment)
    : c.next.skip inner.stages.length = next.skip (inner.across c).stages.length := by
  cases crosses_of_crossing crossed with
  | broadcast => rfl
  | split found finished sink splits =>
      simp only [StageId.skip, StageId.next, Segment.across, List.length_append,
        List.length_singleton, StageId.mk.injEq]
      omega

/-- A planned analysis is a pipeline, and its stages take the identifiers from `next` on.
Witness: induction on the number of nodes that it may come to.
-/
theorem follow_planned (steps : Nat)
    (planned : v.follow steps next draft prev id = ⟨reached, .planned segment⟩)
    : (∃ path, v.Pipeline next draft prev (id :: path) segment)
      ∧ reached = next.skip segment.stages.length := by
  induction steps generalizing next draft prev id segment with
  | zero => simp [follow] at planned
  | succ steps ih =>
      simp only [follow, PhysicalNode.route] at planned
      cases kind : (v.node id).kind with
      | pipeline =>
          simp only [kind] at planned
          cases active : (v.node id).active with
          | nil =>
              rw [active] at planned
              obtain ⟨made, rfl⟩ := ofEnding_planned planned
              exact ⟨⟨[], .ends (.output kind active made)⟩, rfl⟩
          | cons consumer others =>
              cases others with
              | nil =>
                  rw [active] at planned
                  obtain ⟨_, _, inner, same, followed, rfl⟩ := passThrough_planned planned
                  rw [active] at same
                  obtain ⟨rfl, rfl⟩ := List.cons.inj same
                  obtain ⟨⟨path, rest⟩, rfl⟩ := ih followed
                  exact ⟨⟨_, .pass kind active rest⟩, rfl⟩
              | cons other others =>
                  rw [active] at planned
                  obtain ⟨made, rfl⟩ := ofEnding_planned planned
                  exact ⟨⟨[], .ends (.materialize kind (by simp [active]) made)⟩, rfl⟩
      | aggregation =>
          simp only [kind] at planned
          obtain ⟨made, rfl⟩ := ofEnding_planned planned
          exact ⟨⟨[], .ends (.aggregate kind made)⟩, rfl⟩
      | partition =>
          simp only [kind] at planned
          obtain ⟨made, rfl⟩ := ofEnding_planned planned
          exact ⟨⟨[], .ends (.partition kind made)⟩, rfl⟩
      | join state =>
          simp only [kind] at planned
          cases state with
          | notStarted =>
              obtain ⟨ending, rfl⟩ := join_notStarted kind planned
              exact ⟨⟨[], .ends ending⟩, rfl⟩
          | started strategy hashSet =>
              obtain ⟨c, inner, crossed, probed, rfl⟩ := join_started kind planned
              rcases joinProbe_planned probed with
                ⟨consumer, active, followed⟩ | ⟨shared, made, reach⟩
              · obtain ⟨⟨path, rest⟩, reach⟩ := ih followed
                exact ⟨⟨_, .cross kind crossed active rest⟩,
                  reach.trans (skip_across crossed inner)⟩
              · exact ⟨⟨[], .gather kind crossed shared made⟩,
                  reach.trans (skip_across crossed inner)⟩

/-- The draft of a pipeline that has just left its source. -/
def sourceDraft (v : View) (source : NodeId) (set : SetId) : TupleSetDraft :=
  { TupleSetDraft.ofJob v.jobId with
    sourceTupleSet := some (v.outputOf source)
    source := some set
    tupleSets := [v.outputOf source] }

/-- A planned analysis starts from a source and goes along its next consumer. -/
theorem analyze_planned {source : NodeId}
    (planned : v.analyze source next = ⟨reached, .planned segment⟩)
    : ∃ set consumer others path inner,
        (v.node source).sourceSet = some set
        ∧ (v.node source).active = consumer :: others
        ∧ v.Pipeline next (v.sourceDraft source set) source (consumer :: path) inner
        ∧ segment = inner.through source
        ∧ reached = next.skip segment.stages.length := by
  unfold analyze at planned
  cases found : (v.node source).sourceSet with
  | none => simp [found] at planned
  | some set =>
      rw [found] at planned
      obtain ⟨consumer, others, inner, active, followed, rfl⟩ := passThrough_planned planned
      obtain ⟨⟨path, rest⟩, reach⟩ := follow_planned _ followed
      exact ⟨set, consumer, others, path, inner, rfl, active, rest, rfl, reach⟩

end View

end DataflowPlan
