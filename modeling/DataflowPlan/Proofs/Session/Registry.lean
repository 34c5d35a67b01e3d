import DataflowPlan.Proofs.Session.Completion
import DataflowPlan.Proofs.Session.Descent

/-! The registry of sources. It holds each source under the key of its set, so two sources of one
key cannot both stand in it: a source is lost exactly when a new one comes with the key of another
that is still wanted.
-/

namespace DataflowPlan.Session

/-- The registry and the sets of its sources fit together: an entry has the key of its source's set,
and a step that was made a source keeps its output in that set.
-/
structure Keyed (s : Session) : Prop where
  entries
    : ∀ key id,
        s.sources.get? key = some id → ∃ set, (s.node id).sourceSet = some set ∧ set.key = key
  kept
    : ∀ p set,
        (s.node p).atomic.kind = .other →
          (s.node p).sourceSet = some set →
            ∃ c sink,
              s.topology.graph.computation (s.node p).atomic.computation = .ok c
              ∧ c.materializeOutput = true
              ∧ c.sinkSet = .ok sink
              ∧ set.key = sink.key

theorem Beginning.keyed {g : Graph} {s : Session} (beginning : s.Beginning g)
    : s.Keyed := by
  refine ⟨fun key id found => (beginning.registered key id).mp found, ?_⟩
  intro p set other isSource
  obtain ⟨c, scan, -, -⟩ := beginning.exists_scan isSource
  simp [other] at scan

theorem sinkSet_of_set? {c d : Computation} (same : d.set? = c.set?) {sink : SetId}
    (names : c.sinkSet = .ok sink)
    : d.sinkSet = .ok sink := by
  unfold Computation.sinkSet at names ⊢
  rw [same]
  cases found : c.set? with
  | none => simp [found] at names
  | some set => simpa [found] using names

variable {g : Graph} {first s : Session} {followed : List Arena.Edge} {stats : Statistics}
  {skip : List String} {key : String} {source last : NodeId} {init : List NodeId}
  {reached : StageId} {segment : Segment}

theorem Reaches.has_last (reaches : Reaches g first s followed)
    (course : (s.view stats).Course source init last segment)
    : s.topology.arena.Has last :=
  Arena.has_last (v := s.view stats) reaches.wired reaches.ledger course

/-- A node that a pipeline ends at, and that is a source already, is a step.
Witness: any other kind of node is complete once it is a source, so that no edge that leads to it is
still to follow.
-/
theorem Reaches.other_of_source (reaches : Reaches g first s followed)
    (course : (s.view stats).Course source init last segment)
    (was : (s.node last).sourceSet ≠ none)
    : (s.node last).atomic.kind = .other := by
  obtain ⟨q, link⟩ := Arena.exists_link_last source init last
  have ledger : (s.view stats).topology.arena.Ledger followed := reaches.ledger
  have edge := Arena.course_edge ledger course link
  have fresh := Arena.course_fresh reaches.wired ledger course link
  have inside := reaches.wired.has_consumer edge
  obtain ⟨complete, -⟩ := reaches.ledger.sources last was
  rcases complete with scan | ⟨⟨earlier, come⟩, sides⟩
  · exact absurd edge (reaches.wired.scan_reads_nothing scan q)
  · cases kind : (s.node last).atomic.kind with
    | scan => exact absurd edge (reaches.wired.scan_reads_nothing kind q)
    | joinSets => exact absurd (sides kind q edge) fresh
    | other => rfl
    | aggregate =>
        have single := reaches.wired.breaker_single inside (.inl kind)
        have same := reaches.wired.producer_unique single edge (reaches.ledger.edges _ come)
        exact absurd (same ▸ come) fresh
    | partition =>
        have single := reaches.wired.breaker_single inside (.inr kind)
        have same := reaches.wired.producer_unique single edge (reaches.ledger.edges _ come)
        exact absurd (same ▸ come) fresh

/-- A step is no aggregate. -/
theorem Reaches.not_aggregation (reaches : Reaches g first s followed)
    (course : (s.view stats).Course source init last segment)
    (other : (s.node last).atomic.kind = .other)
    : (s.node last).kind ≠ .aggregation := by
  intro kind
  have aggregate := (reaches.wired.aggregation_iff (reaches.has_last course)).mp kind
  simp [show (s.topology.arena.node last).atomic.kind = .other from other] at aggregate

/-- A node that becomes a source again reads a set of the same key as before.
Witness: it is a step, and a step that was a source keeps its output in one set.
-/
theorem Reaches.same_key (reaches : Reaches g first s followed) (keyed : s.Keyed)
    (course : (s.view stats).Course source init last segment) {set old : SetId}
    (new : segment.newSource = some (last, set)) (was : (s.node last).sourceSet = some old)
    : set.key = old.key := by
  have other := reaches.other_of_source course (by simp [was])
  obtain ⟨c, sink, found, keeps, names, key⟩ := keyed.kept last old other was
  cases course.sourced new with
  | kept found' keeps' names' key' same =>
      obtain rfl := Except.ok.inj (found.symm.trans found')
      obtain rfl := Except.ok.inj (names.symm.trans names')
      exact key'.trans key.symm
  | redirected found' unkept key' changed =>
      obtain rfl := Except.ok.inj (found.symm.trans found')
      simp [keeps] at unkept
  | handed kind key' same => exact absurd kind (reaches.not_aggregation course other)

/-- A step that becomes a source keeps its output in that source's set from then on. -/
theorem ReachesNamed.keeps_last (reaches : ReachesNamed g first s followed)
    (course : (s.view stats).Course source init last segment) {set : SetId}
    (new : segment.newSource = some (last, set)) (other : (s.node last).atomic.kind = .other)
    : ∃ c sink,
        (segment.apply s.topology).graph.computation (s.node last).atomic.computation = .ok c
        ∧ c.materializeOutput = true
        ∧ c.sinkSet = .ok sink
        ∧ set.key = sink.key := by
  cases course.sourced new with
  | kept found keeps names key same =>
      rw [show (segment.apply s.topology).graph = _ from same]
      exact ⟨_, _, found, keeps, names, key⟩
  | @redirected c found unkept key changed =>
      have found : s.topology.graph.computation (s.node last).atomic.computation = .ok c := found
      refine ⟨c.setOutput s.jobId (s.node last).output, .user s.jobId (s.node last).output, ?_,
        rfl, rfl, key⟩
      have own := reaches.named _ _ (Graph.computation_eq_ok.mp found)
      have after := Graph.computation_modify found c.name (·.setOutput s.jobId (s.node last).output)
      rw [if_pos own.symm] at after
      rw [show (segment.apply s.topology).graph = _ from changed]
      exact after
  | handed kind key same => exact absurd kind (reaches.not_aggregation course other)

theorem Keyed.of_same {m : Session} (keyed : s.Keyed)
    (entries : ∀ key id, m.sources.get? key = some id → s.sources.get? key = some id)
    (graph : m.topology.graph = s.topology.graph)
    (atomic : ∀ p, (m.node p).atomic = (s.node p).atomic)
    (source : ∀ p, (m.node p).sourceSet = (s.node p).sourceSet)
    : m.Keyed := by
  refine ⟨?_, ?_⟩
  · intro key id found
    rw [source]
    exact keyed.entries key id (entries key id found)
  · intro p set other isSource
    rw [atomic] at other
    rw [source] at isSource
    rw [graph, atomic]
    exact keyed.kept p set other isSource

theorem node_penalize (s : Session) (key : String) (source p : NodeId)
    : (s.penalize key source).node p
        = if p = source then (s.node source).rotate else s.node p :=
  Arena.node_rotate s.topology.arena source p

theorem sourceSet_penalize (s : Session) (key : String) (source p : NodeId)
    : ((s.penalize key source).node p).sourceSet = (s.node p).sourceSet :=
  Arena.sourceSet_rotate s.topology.arena source p

theorem Keyed.penalize (keyed : s.Keyed) (key : String) (source : NodeId)
    : (s.penalize key source).Keyed :=
  keyed.of_same (fun _ _ found => found) rfl
    (fun p => (Arena.frame_rotate s.topology.arena source).atomic p)
    (fun p => sourceSet_penalize s key source p)

theorem Keyed.prune (keyed : s.Keyed)
    : s.prune.Keyed := by
  refine keyed.of_same ?_ rfl (fun _ => rfl) (fun _ => rfl)
  intro key id found
  rw [Session.prune, Table.get?_filter, Option.filter_eq_some_iff] at found
  exact found.1

theorem sourceSet_commit (course : (s.view stats).Course source init last segment)
    (inside : s.topology.arena.Has last) (p : NodeId)
    : ((s.commit key source reached segment).node p).sourceSet
        = match segment.newSource with
          | some (id, set) => if p = id then some set else (s.node p).sourceSet
          | none => (s.node p).sourceSet := by
  have node : (s.commit key source reached segment).node p
      = (segment.apply (s.view stats).topology).arena.node p := node_commit _ _ _ _ _ _
  have made := course.newSource
  rw [node]
  by_cases isLast : p = last
  · subst isLast
    rw [course.sourceSet_last inside]
    split at made
    · rw [made]
      rfl
    · obtain ⟨set, new⟩ := made
      rw [new]
      simp
  · rw [course.sourceSet_other isLast]
    split at made
    · rw [made]
      rfl
    · obtain ⟨set, new⟩ := made
      rw [new]
      simp only [isLast, if_false]
      rfl

theorem eq_last_of_newSource (course : (s.view stats).Course source init last segment)
    {id : NodeId} {set : SetId} (new : segment.newSource = some (id, set))
    : id = last := by
  have made := course.newSource
  split at made
  · simp [made] at new
  · obtain ⟨_, there⟩ := made
    exact (Prod.mk.inj (Option.some.inj (new.symm.trans there))).1

/-- The node that becomes a source has consumers to plan. -/
theorem Reaches.newSource_live (reaches : Reaches g first s followed)
    (course : (s.view stats).Course source init last segment) {id : NodeId} {set : SetId}
    (new : segment.newSource = some (id, set))
    : ((s.commit key source reached segment).node id).active ≠ [] := by
  obtain rfl := eq_last_of_newSource course new
  have made := course.newSource
  split at made
  · simp [made] at new
  · next open' =>
      rw [not_or] at open'
      have path := Arena.coursePath_nodup (v := s.view stats) reaches.wired reaches.ledger course
      have absent : (source :: (s.view stats).steps init).count id = 0 := by
        refine List.count_eq_zero.mpr fun member => ?_
        have before : id ∈ source :: init := by
          rcases List.mem_cons.mp member with rfl | step
          · simp
          · exact List.mem_cons_of_mem _ (List.mem_filter.mp step).1
        exact (List.nodup_append.mp path).2.2 id before id (by simp) rfl
      rw [active_commit course, absent, List.drop_zero]
      exact open'.2

/-- A set that can be read after a commit could be read before, or is the one that is made now. -/
theorem sourceSet_commit_cases (course : (s.view stats).Course source init last segment)
    (inside : s.topology.arena.Has last) {p : NodeId} {set : SetId}
    (isSource : ((s.commit key source reached segment).node p).sourceSet = some set)
    : (s.node p).sourceSet = some set ∨ p = last ∧ segment.newSource = some (last, set) := by
  rw [sourceSet_commit course inside] at isSource
  cases new : segment.newSource with
  | none =>
      rw [new] at isSource
      exact .inl isSource
  | some pair =>
      obtain ⟨target, made⟩ := pair
      rw [new] at isSource
      simp only at isSource
      obtain rfl := eq_last_of_newSource course new
      split at isSource
      · next same =>
          obtain rfl := Option.some.inj isSource
          exact .inr ⟨same, rfl⟩
      · exact .inl isSource

/-- A source stays one, with its set or the one that a pipeline leaves there now. -/
theorem exists_sourceSet_commit (key : String) (reached : StageId)
    (course : (s.view stats).Course source init last segment)
    (inside : s.topology.arena.Has last) {p : NodeId} {old : SetId}
    (was : (s.node p).sourceSet = some old)
    : ∃ set,
        ((s.commit key source reached segment).node p).sourceSet = some set
        ∧ (set = old ∨ p = last ∧ segment.newSource = some (last, set)) := by
  rw [sourceSet_commit course inside]
  cases new : segment.newSource with
  | none => exact ⟨old, was, .inl rfl⟩
  | some pair =>
      obtain ⟨target, set⟩ := pair
      obtain rfl := eq_last_of_newSource course new
      by_cases same : p = target
      · exact ⟨set, if_pos same, .inr ⟨same, rfl⟩⟩
      · exact ⟨old, (if_neg same).trans was, .inl rfl⟩

/-- What is registered after a planned pipeline was registered before, unless it is what the
pipeline leaves, under the key of the set.
-/
theorem registered_commit_cases {other : String} {id : NodeId}
    (registered : (s.commit key source reached segment).sources.get? other = some id)
    : s.sources.get? other = some id
      ∨ ∃ set, segment.newSource = some (id, set) ∧ set.key = other := by
  rw [sources_commit] at registered
  split at registered
  · simp at registered
  · split at registered
    · next target made new =>
        split at registered
        · next same =>
            obtain rfl := Option.some.inj registered
            exact .inr ⟨made, new, same.symm⟩
        · exact .inl registered
    · exact .inl registered

/-- The new source reads the set that the pipeline leaves. -/
theorem sourceSet_newSource (course : (s.view stats).Course source init last segment)
    (inside : s.topology.arena.Has last) {id : NodeId} {set : SetId}
    (new : segment.newSource = some (id, set))
    : ((s.commit key source reached segment).node id).sourceSet = some set := by
  rw [sourceSet_commit course inside, new]
  exact if_pos rfl

theorem registered_of_commit (course : (s.view stats).Course source init last segment)
    {other : String} {id : NodeId}
    (registered : (s.commit key source reached segment).sources.get? other = some id)
    (old : ¬ ∃ made, segment.newSource = some (last, made) ∧ made.key = other)
    : s.sources.get? other = some id := by
  refine (registered_commit_cases registered).resolve_right ?_
  rintro ⟨made, new, same⟩
  exact old ⟨made, eq_last_of_newSource course new ▸ new, same⟩

theorem atomic_commit (course : (s.view stats).Course source init last segment) (p : NodeId)
    : ((s.commit key source reached segment).node p).atomic = (s.node p).atomic := by
  rw [node_commit]
  exact course.frame.atomic p

/-- Entries after a commit have the keys of their sources: the new one has that of its set, and a
node that becomes a source again has an entry of the same key.
-/
theorem Keyed.entries_commit (reaches : Reaches g first s followed) (keyed : s.Keyed)
    (course : (s.view stats).Course source init last segment) {other : String} {id : NodeId}
    (found : (s.commit key source reached segment).sources.get? other = some id)
    : ∃ set,
        ((s.commit key source reached segment).node id).sourceSet = some set
        ∧ set.key = other := by
  have inside := reaches.has_last course
  rcases registered_commit_cases found with before | ⟨set, new, same⟩
  · obtain ⟨old, was, named⟩ := keyed.entries other id before
    obtain ⟨set, now, rfl | ⟨rfl, new⟩⟩ :=
      exists_sourceSet_commit key reached course inside was
    · exact ⟨set, now, named⟩
    · exact ⟨set, now, (reaches.same_key keyed course new was).trans named⟩
  · exact ⟨set, sourceSet_newSource course inside new, same⟩

theorem Keyed.commit (reaches : ReachesNamed g first s followed) (keyed : s.Keyed)
    (course : (s.view stats).Course source init last segment)
    : (s.commit key source reached segment).Keyed := by
  refine ⟨fun other id found => keyed.entries_commit reaches.toReaches course found, ?_⟩
  intro p set other isSource
  rw [atomic_commit course] at other ⊢
  rw [topology_commit]
  rcases sourceSet_commit_cases course (reaches.has_last course) isSource with was | ⟨rfl, new⟩
  · obtain ⟨c, sink, found, keeps, names, named⟩ := keyed.kept p set other was
    obtain ⟨d, there, derived⟩ :=
      (course.kept reaches.named).exists_derived found
    obtain ⟨keepsAfter, same⟩ := derived.kept keeps
    exact ⟨d, sink, there, keepsAfter, sinkSet_of_set? same names, named⟩
  · exact reaches.keeps_last course new other

/-- Entries have the keys of their sources in every session that a run leads to. -/
theorem steady_keyed (g : Graph) (first : Session)
    : Steady fun _ s => ∃ followed, ReachesNamed g first s followed ∧ s.Keyed :=
  steady_of_named (P := fun _ _ s => s.Keyed)
    (fun reaches keyed _ course _ _ => keyed.commit reaches course)
    (fun keyed key source => keyed.penalize key source)
    (fun keyed => keyed.prune)

end DataflowPlan.Session
