import DataflowPlan.Proofs.Analysis.Costs
import DataflowPlan.Proofs.Analysis.Failure
import DataflowPlan.Proofs.Analysis.Ledger
import DataflowPlan.Proofs.Graph.JoinTree

/-! Arrivals: what becomes of a pipeline on its way. It is refused only at a join that is not
started, and only if it probes another join by then. In a join tree it does not fail.
-/

namespace DataflowPlan

namespace Analysis

@[simp]
theorem refused_mapSegment {a : Analysis} {change : Segment → Segment}
    : (a.mapSegment change).verdict = .refused ↔ a.verdict = .refused := by
  obtain ⟨reached, verdict⟩ := a
  cases verdict <;> simp [mapSegment]

@[simp]
theorem refused_ofEnding {next : StageId} {made : Except Error Segment}
    : (ofEnding next made).verdict ≠ .refused := by
  cases made <;> simp [ofEnding]

end Analysis

namespace View

variable {v : View} {next : StageId} {draft : TupleSetDraft} {prev id : NodeId} {set : SetId}

/-- What a refusal tells of the set that a pipeline is weighed by: it is cheap, and some join is not
started.
-/
structure Defers (v : View) (set : SetId) : Prop where
  cheap : v.stats.costOf set ≤ v.config.joinThreshold
  waiting : ∃ p, (v.node p).kind = .join .notStarted

section

variable {follow : Continuation}
  (goesOn
    : ∀ {next draft prev id},
        draft.costSet = some set →
          (follow next draft prev id).verdict = .refused → v.Defers set)

include goesOn

theorem passThrough_refused (weighs : draft.costSet = some set)
    (refused : (v.passThrough follow next draft id).verdict = .refused)
    : v.Defers set := by
  unfold passThrough at refused
  split at refused
  · simp at refused
  · rw [Analysis.consuming, Analysis.refused_mapSegment] at refused
    exact goesOn ((TupleSetDraft.costSet_addTupleSet _).trans weighs) refused

theorem joinProbe_refused (weighs : draft.costSet = some set)
    (refused : (v.joinProbe follow next draft prev id).verdict = .refused)
    : v.Defers set := by
  unfold joinProbe at refused
  split at refused
  · simp at refused
  · exact goesOn weighs refused
  · exact absurd refused Analysis.refused_ofEnding

theorem join_refused {state : JoinState} (kind : (v.node id).kind = .join state)
    (weighs : draft.costSet = some set)
    (refused : (v.join follow next draft prev id).verdict = .refused)
    : v.Defers set := by
  simp only [join, PhysicalNode.join?, kind, Option.getD_some] at refused
  split at refused
  · simp at refused
  · cases state with
    | notStarted =>
        simp only at refused
        split at refused
        · next cheap =>
            rw [isRefused, draftCost, weighs, Bool.and_eq_true, decide_eq_true_eq] at cheap
            exact ⟨cheap.2, id, kind⟩
        · exact absurd refused Analysis.refused_ofEnding
    | started strategy hashSet =>
        cases strategy with
        | broadcast =>
            refine joinProbe_refused goesOn ?_ refused
            rw [TupleSetDraft.costSet_addProbe, TupleSetDraft.costSet_addTupleSet, weighs]
        | hashPartitioned =>
            simp only at refused
            split at refused
            · next split =>
                rw [Analysis.after, Analysis.refused_mapSegment] at refused
                exact joinProbe_refused goesOn (costSet_of_splitProbe weighs split) refused
            · simp at refused

end

/-- A pipeline that is refused met a join that is not started, and what it is weighed by is cheap.
-/
theorem follow_refused {steps : Nat} (weighs : draft.costSet = some set)
    (refused : (v.follow steps next draft prev id).verdict = .refused)
    : v.Defers set := by
  induction steps generalizing next draft prev id with
  | zero => simp [follow] at refused
  | succ steps ih =>
      simp only [follow, PhysicalNode.route] at refused
      cases kind : (v.node id).kind with
      | pipeline =>
          rw [kind] at refused
          cases active : (v.node id).active with
          | nil =>
              rw [active] at refused
              exact absurd refused Analysis.refused_ofEnding
          | cons consumer others =>
              cases others with
              | nil =>
                  rw [active] at refused
                  exact passThrough_refused ih weighs refused
              | cons second rest =>
                  rw [active] at refused
                  exact absurd refused Analysis.refused_ofEnding
      | aggregation =>
          rw [kind] at refused
          exact absurd refused Analysis.refused_ofEnding
      | partition =>
          rw [kind] at refused
          exact absurd refused Analysis.refused_ofEnding
      | join state =>
          rw [kind] at refused
          exact join_refused ih kind weighs refused

/-- A source that is refused is cheap, and some join is not started. -/
theorem cheap_of_refused {source : NodeId}
    (refused : (v.analyze source next).verdict = .refused)
    : (∃ set,
          (v.node source).sourceSet = some set
          ∧ v.stats.costOf set ≤ v.config.joinThreshold)
      ∧ ∃ p, (v.node p).kind = .join .notStarted := by
  unfold analyze at refused
  split at refused
  · simp at refused
  · next set isSource =>
      obtain ⟨cheap, waiting⟩ := passThrough_refused follow_refused rfl refused
      exact ⟨⟨set, isSource, cheap⟩, waiting⟩

theorem analyze_refused {source : NodeId}
    (refused : (v.analyze source next).verdict = .refused)
    : ∃ p, (v.node p).kind = .join .notStarted :=
  (cheap_of_refused refused).2

/-- The pipeline from the source comes from the first node to the second one, through steps alone.
-/
inductive Leads (v : View) (source : NodeId) : NodeId → NodeId → Prop
  | start {consumer others} (isSource : (v.node source).sourceSet ≠ none)
    (active : (v.node source).active = consumer :: others)
    : v.Leads source source consumer
  | pass {p q consumer} (before : v.Leads source p q) (kind : (v.node q).kind = .pipeline)
    (active : (v.node q).active = [consumer])
    : v.Leads source q consumer

theorem Leads.source {source p q : NodeId} (leads : v.Leads source p q)
    : (v.node source).sourceSet ≠ none ∧ (v.node source).active ≠ [] := by
  induction leads with
  | start isSource active => exact ⟨isSource, by simp [active]⟩
  | pass before kind active ih => exact ih

/-- A pipeline that came through steps alone probes no join.
Witness: induction on the way; every step only adds its tuple set to the draft.
-/
theorem Leads.follows {source p q : NodeId} (leads : v.Leads source p q) (next : StageId)
    : ∃ steps draft,
        draft.isProbing = false
        ∧ ((v.analyze source next).verdict = .refused
            → (v.follow steps next draft p q).verdict = .refused) := by
  induction leads with
  | @start consumer others isSource active =>
      obtain ⟨set, found⟩ := Option.ne_none_iff_exists'.mp isSource
      refine ⟨v.topology.arena.size, v.sourceDraft source set, rfl, ?_⟩
      intro refused
      unfold analyze passThrough at refused
      rw [found, active] at refused
      simp only [Analysis.consuming, Analysis.refused_mapSegment] at refused
      exact refused
  | @pass p q consumer before kind active ih =>
      obtain ⟨steps, draft, plain, refuses⟩ := ih
      cases steps with
      | zero =>
          refine ⟨0, draft, plain, ?_⟩
          intro refused
          simpa [follow] using refuses refused
      | succ steps =>
          refine ⟨steps, draft.addTupleSet (v.outputOf q), plain, ?_⟩
          intro refused
          have further := refuses refused
          simpa [follow, PhysicalNode.route, kind, active, passThrough, Analysis.consuming]
            using further

/-- A pipeline is not refused at a join that it comes to through steps alone. -/
theorem Leads.accepted {source p q : NodeId} (leads : v.Leads source p q)
    (kind : (v.node q).kind = .join .notStarted) (next : StageId)
    : (v.analyze source next).verdict ≠ .refused := by
  intro refused
  obtain ⟨steps, draft, plain, refuses⟩ := leads.follows next
  have arrived := refuses refused
  cases steps with
  | zero => simp [follow] at arrived
  | succ steps =>
      simp only [follow, PhysicalNode.route, kind, join, PhysicalNode.join?,
        Option.getD_some, isRefused, plain, Bool.false_and, Bool.false_eq_true, if_false] at arrived
      split at arrived
      · simp at arrived
      · exact absurd arrived Analysis.refused_ofEnding

theorem exists_output (next : StageId) (prev : NodeId) {c : Computation} (begun : draft.Begun)
    (found : v.computation id = .ok c) (names : c.set?.isSome)
    : ∃ segment, v.output next draft prev id = .ok segment := by
  obtain ⟨set, isSet⟩ := Option.isSome_iff_exists.mp names
  have sink : c.sinkSet = .ok set := by simp [Computation.sinkSet, isSet]
  obtain ⟨stage, finished⟩ := TupleSetDraft.exists_finish
    (d := draft.close next (v.outputOf prev) c c.outputType set)
    ⟨begun.source, begun.sourceTupleSet⟩
    rfl rfl rfl rfl rfl
  exact ⟨⟨[.tupleSet stage], [], none, []⟩, by simp [output, found, sink, finished]⟩

theorem exists_joinBuild (next : StageId) (prev : NodeId) {c : Computation} (begun : draft.Begun)
    (found : v.computation id = .ok c) (named : v.topology.graph.Named)
    : ∃ segment, v.joinBuild next draft prev id = .ok segment := by
  have own : v.topology.graph.computation c.name = .ok c := by
    have there := Graph.computation_eq_ok.mp found
    rw [Graph.computation_eq_ok, named _ _ there]
    exact there
  obtain ⟨stage, finished⟩ : ∃ stage, (v.buildDraft next draft prev id c).finish = .ok stage := by
    unfold buildDraft
    cases v.strategyFor draft with
    | broadcast =>
        exact TupleSetDraft.exists_finish ⟨begun.source, begun.sourceTupleSet⟩ rfl rfl rfl rfl rfl
    | hashPartitioned =>
        exact TupleSetDraft.exists_finish ⟨begun.source, begun.sourceTupleSet⟩ rfl rfl rfl rfl rfl
  exact ⟨v.buildSegment next draft prev id c stage, by
    rw [joinBuild_eq]
    simp [found, finished, own]⟩

theorem exists_splitProbe (next : StageId) (prev : NodeId) {c : Computation} (begun : draft.Begun)
    (found : v.computation id = .ok c) (hashSet : String)
    : ∃ stage data,
        v.splitProbe next draft prev id hashSet
          = .ok (stage, data, v.splitDraft draft id hashSet) := by
  have closed : TupleSetDraft.Begun
      { draft.close next (v.outputOf prev) c intermediateType
          (v.jobSet id "_probeRepartitionData" v.config.broadcastPageSize) with
        repartitioning := true
        repartitionJoin := true } :=
    ⟨begun.source, begun.sourceTupleSet⟩
  obtain ⟨stage, finished⟩ := TupleSetDraft.exists_finish closed rfl rfl rfl rfl rfl
  refine ⟨.tupleSet stage, v.jobSet id "_probeRepartitionData" v.config.broadcastPageSize, ?_⟩
  unfold splitProbe
  simp only [found, Except.ok_bind]
  rw [finished]
  rfl

/-- The view is of a session that plans a join tree. -/
structure OfTree (v : View) (g : Graph) (followed : List Arena.Edge) : Prop where
  tree : g.JoinTree
  wired : Arena.Wired g v.topology.arena
  ledger : v.topology.arena.Ledger followed
  kept : v.topology.graph.Kept g
  named : v.topology.graph.Named

namespace OfTree

variable {g : Graph} {followed : List Arena.Edge} (ofTree : v.OfTree g followed)

include ofTree

/-- Every node has at most one consumer. -/
theorem consumers_eq {p c : NodeId} (edge : c ∈ (v.node p).consumers)
    : (v.node p).consumers = [c] := by
  have inside := Arena.has_of_edge edge
  have length := congrArg List.length (ofTree.wired.attached p inside).consumers
  rw [List.length_map] at length
  have few := ofTree.tree.unshared (v.topology.arena.node p).output
  rw [← length] at few
  change c ∈ (v.topology.arena.node p).consumers at edge
  change (v.topology.arena.node p).consumers = [c]
  match consumers : (v.topology.arena.node p).consumers with
  | [] => simp [consumers] at edge
  | [only] =>
      rw [consumers, List.mem_singleton] at edge
      rw [edge]
  | _ :: _ :: _ => simp [consumers] at few

theorem join_solo {p : NodeId} (inside : v.topology.arena.Has p)
    (join : (v.node p).atomic.kind = .joinSets)
    : v.topology.arena.Solo p := by
  refine ⟨join, ?_⟩
  have read := ofTree.tree.joinsRead _ (ofTree.wired.known p inside) join
  have attached := (ofTree.wired.attached p inside).consumers
  cases consumers : (v.topology.arena.node p).consumers with
  | nil =>
      rw [consumers] at attached
      exact absurd attached.symm read
  | cons c rest =>
      refine ⟨c, ?_⟩
      rw [← consumers]
      exact ofTree.consumers_eq (show c ∈ (v.topology.arena.node p).consumers by simp [consumers])

/-- A queue holds the consumer whose edge is not followed. -/
theorem active_eq {p c : NodeId} (edge : c ∈ (v.node p).consumers) (fresh : (p, c) ∉ followed)
    : (v.node p).active = [c] := by
  have only := ofTree.consumers_eq edge
  by_cases solo : v.topology.arena.Solo p
  · exact (ofTree.ledger.solo p solo).trans only
  · have queued := ofTree.ledger.queued p solo
    refine List.perm_singleton.mp ((List.perm_ext_iff_of_nodup (ofTree.ledger.distinct p)
      (List.nodup_singleton c)).mpr ?_)
    intro d
    rw [queued, show (v.topology.arena.node p).consumers = [c] from only, List.mem_singleton]
    exact ⟨And.left, by rintro rfl; exact ⟨rfl, fresh⟩⟩

theorem exists_computation {p : NodeId} (inside : v.topology.arena.Has p)
    : ∃ c, v.computation p = .ok c := by
  obtain ⟨c, found⟩ := ofTree.wired.valid.known _ (ofTree.wired.known p inside)
  obtain ⟨d, there, -⟩ := ofTree.kept.exists_derived found
  exact ⟨d, there⟩

/-- Only joins read several tuple sets. -/
theorem single {p : NodeId} (inside : v.topology.arena.Has p)
    (step : (v.topology.arena.node p).atomic.kind ≠ .joinSets)
    : ∀ i ∈ (v.topology.arena.node p).atomic.inputs,
        ∀ j ∈ (v.topology.arena.node p).atomic.inputs, i = j := by
  have member := ofTree.wired.known p inside
  rcases ofTree.tree.kinds _ member with scan | join | other
  · have fit := ofTree.wired.valid.fit _ member
    simp only [Atomic.hasFitInputs, scan, List.isEmpty_iff] at fit
    simp [fit]
  · exact absurd join step
  · obtain ⟨input, reads⟩ := ofTree.tree.single _ member other
    intro i here j there
    exact ((reads i).mp here).trans ((reads j).mp there).symm

/-- Nothing was followed from a node before all that leads to it. -/
theorem fresh_onward {p q : NodeId} (edge : q ∈ (v.node p).consumers) (fresh : (p, q) ∉ followed)
    (c : NodeId)
    : (q, c) ∉ followed := by
  intro come
  have inside := ofTree.wired.has_consumer edge
  exact ofTree.ledger.not_reached ofTree.wired edge fresh (ofTree.single inside)
    (ofTree.ledger.reached _ come)

/-- A step that is not read on names the set that it writes. -/
theorem output_of_unread (inside : v.topology.arena.Has id)
    (other : (v.node id).atomic.kind = .other) (unread : (v.node id).consumers = [])
    {c : Computation} (found : v.computation id = .ok c)
    : c.set?.isSome ∧ (v.node id).active = [] := by
  have attached := (ofTree.wired.attached id inside).consumers
  rw [show (v.topology.arena.node id).consumers = [] from unread, List.map_nil] at attached
  refine ⟨?_, ?_⟩
  · obtain ⟨d, first, names⟩ :=
      ofTree.tree.kept _ (ofTree.wired.known id inside) other attached.symm
    exact (ofTree.kept.derives first found).sets names
  · refine List.eq_nil_iff_forall_not_mem.mpr fun c queued => ?_
    have edge := ofTree.ledger.consumer_of_active queued
    rw [show (v.topology.arena.node id).consumers = [] from unread] at edge
    simp at edge

/-- A pipeline that comes to a join over a new edge is planned or refused, if the rest of it is. -/
theorem join_settles {follow : Continuation} (edge : id ∈ (v.node prev).consumers)
    (fresh : (prev, id) ∉ followed) (begun : draft.Begun)
    (join : (v.node id).atomic.kind = .joinSets)
    (rest
      : ∀ {next draft consumer},
          consumer ∈ (v.node id).consumers →
            draft.Begun → (follow next draft id consumer).FailsOnly fun _ => False)
    : (v.join follow next draft prev id).FailsOnly fun _ => False := by
  have inside := ofTree.wired.has_consumer edge
  obtain ⟨c, found⟩ := ofTree.exists_computation inside
  obtain ⟨state, kind⟩ := (ofTree.wired.join_iff inside).mpr join
  have kind : (v.node id).kind = .join state := kind
  obtain ⟨-, consumer, only⟩ := ofTree.join_solo inside join
  have further : consumer ∈ (v.node id).consumers := by
    rw [show (v.node id).consumers = [consumer] from only]
    simp
  have active := ofTree.active_eq further (ofTree.fresh_onward edge fresh consumer)
  have probed : ∀ {next : StageId} {draft : TupleSetDraft}, draft.Begun →
      (v.joinProbe follow next draft prev id).FailsOnly fun _ => False := by
    intro next draft begun
    simp only [joinProbe, active]
    exact rest further begun
  simp only [kind, View.join, PhysicalNode.hasConsumers, PhysicalNode.join?, active,
    List.isEmpty_cons, Bool.not_false, Bool.not_true, Bool.false_eq_true, if_false,
    Option.getD_some]
  cases state with
  | notStarted =>
      dsimp only
      split
      · exact Analysis.failsOnly_refused _
      · obtain ⟨segment, made⟩ := exists_joinBuild next prev begun found ofTree.named
        exact Analysis.failsOnly_ofEnding (by simp [made])
  | started strategy hashSet =>
      cases strategy with
      | broadcast => exact probed ⟨begun.source, begun.sourceTupleSet⟩
      | hashPartitioned =>
          obtain ⟨stage, data, split⟩ := exists_splitProbe next prev begun found hashSet
          have begins : (v.splitDraft draft id hashSet).Begun :=
            ⟨⟨_, rfl⟩, begun.sourceTupleSet⟩
          simp only [split]
          exact Analysis.failsOnly_mapSegment (probed begins) _

/-- A pipeline that follows a new edge is planned or refused.
Witness: induction on the nodes that it may still come to, whose ranks rise.
-/
theorem follow_settles {rank : NodeId → Nat}
    (below : ∀ p, v.topology.arena.Has p → rank p < g.atomics.length)
    (rises : ∀ p, ∀ c ∈ (v.node p).consumers, rank p < rank c) (steps : Nat)
    (edge : id ∈ (v.node prev).consumers) (fresh : (prev, id) ∉ followed) (begun : draft.Begun)
    (enough : g.atomics.length ≤ steps + rank id)
    : (v.follow steps next draft prev id).FailsOnly fun _ => False := by
  induction steps generalizing next draft prev id with
  | zero =>
      have inside := ofTree.wired.has_consumer edge
      have := below id inside
      omega
  | succ steps ih =>
      have inside := ofTree.wired.has_consumer edge
      obtain ⟨c, found⟩ := ofTree.exists_computation inside
      have onward := ofTree.fresh_onward edge fresh
      -- the rest of the pipeline, from the only consumer on
      have rest : ∀ {next : StageId} {draft : TupleSetDraft} {consumer : NodeId},
          consumer ∈ (v.node id).consumers → draft.Begun →
            (v.follow steps next draft id consumer).FailsOnly fun _ => False := by
        intro next draft consumer further begun
        have := rises id consumer further
        exact ih further (onward consumer) begun (by omega)
      rcases ofTree.tree.kinds _ (ofTree.wired.known id inside) with scan | join | other
      · exact absurd edge (ofTree.wired.scan_reads_nothing scan prev)
      · obtain ⟨state, kind⟩ := (ofTree.wired.join_iff inside).mpr join
        have kind : (v.node id).kind = .join state := kind
        simp only [follow, PhysicalNode.route, kind]
        exact ofTree.join_settles edge fresh begun join rest
      · have kind : (v.node id).kind = .pipeline :=
          (ofTree.wired.pipeline_iff inside).mpr (.inr other)
        simp only [follow, PhysicalNode.route, kind]
        cases consumers : (v.node id).consumers with
        | nil =>
            obtain ⟨names, active⟩ := ofTree.output_of_unread inside other consumers found
            obtain ⟨segment, made⟩ := exists_output next prev begun found names
            simp only [active]
            exact Analysis.failsOnly_ofEnding (by simp [made])
        | cons consumer others =>
            have further : consumer ∈ (v.node id).consumers := by simp [consumers]
            have active := ofTree.active_eq further (onward consumer)
            simp only [active, passThrough, Analysis.consuming]
            have taken : (draft.addTupleSet (v.outputOf id)).Begun :=
              ⟨begun.source, begun.sourceTupleSet⟩
            exact Analysis.failsOnly_mapSegment (rest further taken) _

/-- An analysis plans a pipeline or is refused, if the source has a consumer to plan. -/
theorem analyze_settles {source : NodeId} (isSource : (v.node source).sourceSet ≠ none)
    (live : (v.node source).active ≠ [])
    : (v.analyze source next).FailsOnly fun _ => False := by
  obtain ⟨set, found⟩ := Option.ne_none_iff_exists'.mp isSource
  obtain ⟨consumer, others, active⟩ := List.exists_cons_of_ne_nil live
  obtain ⟨rank, below, rises⟩ := ofTree.wired.exists_rank
  obtain ⟨-, notSolo⟩ := ofTree.ledger.sources source isSource
  have queued : consumer ∈ (v.node source).active := by simp [active]
  obtain ⟨edge, fresh⟩ := (ofTree.ledger.queued source notSolo consumer).mp queued
  have enough : g.atomics.length ≤ v.topology.arena.size + rank consumer := by
    rw [ofTree.wired.size_eq]
    omega
  have begun : (v.sourceDraft source set).Begun := ⟨⟨set, rfl⟩, ⟨_, rfl⟩⟩
  have settles :
      (v.follow v.topology.arena.size next (v.sourceDraft source set) source consumer).FailsOnly
        fun _ => False :=
    ofTree.follow_settles below rises _ edge fresh begun enough
  unfold analyze passThrough
  rw [found, active]
  exact Analysis.failsOnly_mapSegment settles _

/-- A complete node whose consumer is still to plan is a source. -/
theorem leads_of_reached {p c : NodeId} (edge : c ∈ (v.node p).consumers)
    (fresh : (p, c) ∉ followed) (reached : v.topology.arena.Reached followed p)
    : v.Leads p p c := by
  rcases ofTree.ledger.served p reached (List.ne_nil_of_mem edge) with isSource | all
  · exact .start isSource (ofTree.active_eq edge fresh)
  · exact absurd (all c edge) fresh

/-- Behind a tuple set without joins on the way there is a source that leads to its reader.
Witness: induction on the way; it ends at the scan, or at a step that was made a source.
-/
theorem exists_leads {name : String} (free : g.JoinFree name) {p c : NodeId}
    (inside : v.topology.arena.Has p) (makes : (v.node p).output = name)
    (edge : c ∈ (v.node p).consumers) (fresh : (p, c) ∉ followed)
    : ∃ source, v.Leads source p c := by
  induction free generalizing p c with
  | scan member kind =>
      have same := ofTree.wired.valid.atomic_eq (ofTree.wired.known p inside) member makes
      exact ⟨p, ofTree.leads_of_reached edge fresh (.inl (same ▸ kind))⟩
  | @step a input member kind reads before ih =>
      have same : (v.topology.arena.node p).atomic = a :=
        ofTree.wired.valid.atomic_eq (ofTree.wired.known p inside) member makes
      have other : (v.topology.arena.node p).atomic.kind = .other := same ▸ kind
      have read : input ∈ (v.topology.arena.node p).atomic.inputs := by rw [same, reads]
      obtain ⟨q, arrives, made⟩ := ofTree.wired.exists_producer inside read
      by_cases come : (q, p) ∈ followed
      · exact ⟨p, ofTree.leads_of_reached edge fresh (.of_step come (by simp [other]))⟩
      · obtain ⟨source, leads⟩ := ih (Arena.has_of_edge arrives) made arrives come
        have pass : (v.node p).kind = .pipeline :=
          (ofTree.wired.pipeline_iff inside).mpr (.inr other)
        exact ⟨source, leads.pass pass (ofTree.active_eq edge fresh)⟩

/-- While some join is not started, some source is not refused.
Witness: the join has a side without joins, and no edge that leads to the join is followed.
-/
theorem exists_accepted {join : NodeId} (kind : (v.node join).kind = .join .notStarted)
    : ∃ source,
        (v.node source).sourceSet ≠ none
        ∧ (v.node source).active ≠ []
        ∧ ∀ next, (v.analyze source next).verdict ≠ .refused := by
  have inside : v.topology.arena.Has join := by
    by_contra outside
    rw [View.node, Arena.node_of_not_has outside] at kind
    simp [default, instInhabitedPhysicalNode.default, instInhabitedNodeKind.default] at kind
  have joins := (ofTree.wired.join_iff inside).mp ⟨_, kind⟩
  obtain ⟨input, read, free⟩ := ofTree.tree.free _ (ofTree.wired.known join inside) joins
  obtain ⟨p, edge, made⟩ := ofTree.wired.exists_producer inside read
  have fresh : (p, join) ∉ followed := by
    intro come
    obtain ⟨strategy, hashSet, started⟩ := (ofTree.ledger.started join).mpr ⟨joins, p, come⟩
    rw [PhysicalNode.IsStarted, show (v.topology.arena.node join).kind = _ from kind] at started
    simp at started
  obtain ⟨source, leads⟩ := ofTree.exists_leads free (Arena.has_of_edge edge) made edge fresh
  exact ⟨source, leads.source.1, leads.source.2, leads.accepted kind⟩

/-- No node becomes a source: it would have to be a breaker, or have several consumers. -/
theorem newSource_eq_none {last : NodeId} {segment : Segment} (inside : v.topology.arena.Has last)
    (closes : v.Closes last segment)
    : segment.newSource = none := by
  have few : (v.node last).active.length ≤ 1 := by
    match active : (v.node last).active with
    | [] => simp
    | [only] => simp
    | first :: second :: rest =>
        have queued : ∀ c ∈ (v.topology.arena.node last).active,
            c ∈ (v.topology.arena.node last).consumers :=
          fun c member => ofTree.ledger.consumer_of_active member
        rw [show (v.topology.arena.node last).active = _ from active] at queued
        have only := ofTree.consumers_eq (queued first (by simp))
        have same := queued second (by simp)
        rw [show (v.topology.arena.node last).consumers = [first] from only,
          List.mem_singleton] at same
        have distinct := ofTree.ledger.distinct last
        rw [show (v.topology.arena.node last).active = _ from active, same] at distinct
        simp at distinct
  have kinds := ofTree.tree.kinds _ (ofTree.wired.known last inside)
  refine closes.newSource_eq_none few ?_
  rintro (aggregation | partition)
  · simp [(ofTree.wired.aggregation_iff inside).mp aggregation] at kinds
  · simp [(ofTree.wired.partition_iff inside).mp partition] at kinds

end OfTree

end View

end DataflowPlan
