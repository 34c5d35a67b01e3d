import DataflowPlan.Proofs.Analysis.Account

/-! The accounts of all nodes. Every planned pipeline adds one visit to each account along its
course, and leaves the others as they were, so that all stages are accounted for at any time.
-/

namespace DataflowPlan

/-- All stages so far are on account of some atomic, and each join is probed as often as its sides
came in behind the first one.
-/
structure Accounted (g : Graph) (t : Topology) (followed : List Arena.Edge) (stages : List Stage)
    : Prop where
  accounts
    : ∀ p,
        t.arena.Has p →
          Account g (t.arena.node p).atomic (t.arena.node p).strategy?
            (Arena.incoming followed p)
            (stages.filter (·.isFor (t.arena.node p).atomic.computation))
  known : ∀ stage ∈ stages, stage.computation ∈ g.atomics.map Atomic.computation
  probes
    : ∀ p,
        t.arena.Has p →
          (t.arena.node p).atomic.kind = .joinSets →
            stages.countP (·.probesJoin (t.arena.node p).output)
              = Arena.incoming followed p - 1
  unread
    : ∀ a ∈ g.atomics,
        a.kind = .other →
          g.consumersOf a.output = [] →
            t.graph.computation a.computation = g.computation a.computation

/-- Computations tell the nodes apart if no two atomics name the same one. -/
theorem Arena.Wired.eq_of_computation {g : Graph} {arena : Arena} (wired : Wired g arena)
    (distinct : (g.atomics.map Atomic.computation).Nodup) {p q : NodeId} (left : arena.Has p)
    (right : arena.Has q)
    (same : (arena.node p).atomic.computation = (arena.node q).atomic.computation)
    : p = q := by
  have atomic : (arena.node p).atomic = (arena.node q).atomic :=
    List.inj_on_of_nodup_map distinct (wired.known p left) (wired.known q right) same
  exact wired.sound.id_eq left right (congrArg Atomic.output atomic)

/-- Before anything is planned all accounts are empty. -/
theorem Arena.Mirrors.accounted {g : Graph} {t : Topology} (mirrors : Mirrors g t.arena)
    (graph : t.graph = g)
    : Accounted g t [] [] := by
  refine ⟨?_, by simp, by simp [incoming], fun _ _ _ _ => by rw [graph]⟩
  intro p inside
  have none : (t.arena.node p).strategy? = none := by
    rw [PhysicalNode.strategy?, mirrors.unstarted p inside]
    cases (t.arena.node p).atomic.kind <;> rfl
  rw [none]
  exact .untouched

/-- A refusal leaves all accounts as they are. -/
theorem Accounted.rotate {g : Graph} {t : Topology} {followed : List Arena.Edge}
    {stages : List Stage} (accounted : Accounted g t followed stages) (id : NodeId)
    : Accounted g { t with arena := t.arena.rotate id } followed stages := by
  have frame := Arena.frame_rotate t.arena id
  refine ⟨?_, accounted.known, ?_, accounted.unread⟩
  · intro p inside
    have strategy : ((t.arena.rotate id).node p).strategy? = (t.arena.node p).strategy? := by
      rw [PhysicalNode.strategy?, PhysicalNode.strategy?, Arena.kind_rotate]
    rw [frame.atomic, strategy]
    exact accounted.accounts p (frame.has_iff.mp inside)
  · intro p inside join
    rw [frame.atomic] at join
    rw [frame.output]
    exact accounted.probes p (frame.has_iff.mp inside) join

section Planned

variable {g : Graph} {v : View} {source last : NodeId} {init : List NodeId}
  {segment inner : Segment} {next : StageId} {set : SetId} {followed : List Arena.Edge}
  {stages : List Stage}
  (wired : Arena.Wired g v.topology.arena) (ledger : v.topology.arena.Ledger followed)
  (course : v.Course source init last segment)
  (distinct : (g.atomics.map Atomic.computation).Nodup)
  (single : ∀ a ∈ g.atomics, a.kind = .other → ∃ input, a.ReadsOnly input)

include wired ledger course

/-- An edge that was not followed before leads to each node that a course comes to. -/
theorem exists_fresh_edge {p : NodeId} (member : p ∈ init ++ [last])
    : ∃ q, p ∈ (v.node q).consumers ∧ (q, p) ∉ followed := by
  obtain ⟨q, link⟩ := exists_link_to source member
  exact ⟨q, Arena.course_edge ledger course link, Arena.course_fresh wired ledger course link⟩

theorem has_of_path {p : NodeId} (member : p ∈ init ++ [last])
    : v.topology.arena.Has p := by
  obtain ⟨q, edge, -⟩ := exists_fresh_edge wired ledger course member
  exact wired.has_consumer edge

theorem path_nodup : (init ++ [last]).Nodup :=
  (List.nodup_cons.mp (Arena.coursePath_nodup wired ledger course)).2

theorem incoming_after (p : NodeId)
    : Arena.incoming (followed ++ links (Arena.coursePath source init last)) p
        = Arena.incoming followed p + if p ∈ init ++ [last] then 1 else 0 := by
  have whole := Arena.incoming_append followed source (init ++ [last]) p
  rw [(path_nodup wired ledger course).count] at whole
  exact whole

omit wired ledger in
/-- The strategy of a join stays, or is the one that the course starts the join with. -/
theorem strategy_after (inside : v.topology.arena.Has last) {p : NodeId}
    {strategy : Option JoinStrategy}
    (how
      : strategy = (v.node p).strategy? ∧ (v.node p).kind ≠ .join .notStarted
        ∨ ∃ started name hashSet,
            strategy = some started ∧ .startJoin p name started hashSet ∈ segment.changes)
    : ((segment.apply v.topology).arena.node p).strategy? = strategy := by
  rcases how with ⟨rfl, other⟩ | ⟨started, name, hashSet, rfl, starts⟩
  · have kept : p ≠ last ∨ (v.node last).kind ≠ .join .notStarted := by
      by_cases same : p = last
      · exact .inr (same ▸ other)
      · exact .inl same
    rw [PhysicalNode.strategy?, PhysicalNode.strategy?, course.kind kept]
  · obtain ⟨rfl, isStarted⟩ := course.started_by inside starts
    rw [PhysicalNode.strategy?, isStarted]

include single in
/-- A pipeline adds a visit to each account along its course, and leaves the others as they were.
Witness: its stages come apart by the nodes that it comes to, as their computations are different.
-/
theorem Accounted.account_after (accounted : Accounted g v.topology followed stages)
    (named : v.topology.graph.Named) (distinct : (g.atomics.map Atomic.computation).Nodup)
    (pipeline : v.Pipeline next (v.sourceDraft source set) source (init ++ [last]) inner)
    (whole : segment = inner.through source) {p : NodeId} (inside : v.topology.arena.Has p)
    : Account g (v.node p).atomic ((segment.apply v.topology).arena.node p).strategy?
        (Arena.incoming (followed ++ links (Arena.coursePath source init last)) p)
        ((stages ++ segment.stages).filter (·.isFor (v.node p).atomic.computation)) := by
  have account : Account g (v.node p).atomic (v.node p).strategy? (Arena.incoming followed p)
      (stages.filter (·.isFor (v.node p).atomic.computation)) := accounted.accounts p inside
  obtain ⟨parts, visits, flat⟩ := pipeline.visits named
  have names : ((init ++ [last]).map fun p => (v.node p).atomic.computation).Nodup := by
    refine List.Nodup.map_on ?_ (path_nodup wired ledger course)
    intro q left r right same
    exact wired.eq_of_computation distinct (has_of_path wired ledger course left)
      (has_of_path wired ledger course right) same
  obtain ⟨elsewhere, there⟩ := Stage.filter_flatten (fun _ _ visit => visit.targets) visits names
  have made : segment.stages = parts.flatten := by
    rw [whole]
    exact flat
  rw [List.filter_append, made, incoming_after wired ledger course]
  by_cases member : p ∈ init ++ [last]
  · obtain ⟨part, visit, own⟩ := there p member
    obtain ⟨q, edge, fresh⟩ := exists_fresh_edge wired ledger course member
    have same : g.consumersOf (v.node p).atomic.output = [] → (v.node p).kind = .pipeline →
        v.computation p = g.computation (v.node p).atomic.computation := by
      intro unread kind
      have other : (v.node p).atomic.kind = .other :=
        ((wired.pipeline_iff inside).mp kind).resolve_left
          fun scan => wired.scan_reads_nothing scan q edge
      exact accounted.unread _ (wired.known p inside) other unread
    have leaves : v.Leaves segment.changes p part := by
      rw [whole]
      exact visit.leaves.mono (List.subset_append_left _ _)
    obtain ⟨strategy, after, how⟩ := account.visit wired ledger single edge fresh leaves same
    have last := Arena.has_last wired ledger course
    rw [own, if_pos member, strategy_after course last how]
    exact after
  · have absent : (v.node p).atomic.computation
        ∉ (init ++ [last]).map fun p => (v.node p).atomic.computation := by
      intro listed
      obtain ⟨q, onPath, same⟩ := List.mem_map.mp listed
      obtain rfl := wired.eq_of_computation distinct (has_of_path wired ledger course onPath)
        inside same
      exact member onPath
    have other : p ≠ last := by
      rintro rfl
      exact member (by simp)
    have kept : ((segment.apply v.topology).arena.node p).strategy? = (v.node p).strategy? := by
      rw [PhysicalNode.strategy?, PhysicalNode.strategy?, course.kind (.inl other)]
    rw [elsewhere _ absent, List.append_nil, if_neg member, kept]
    exact account

/-- The nodes that a course comes to make different tuple sets. -/
theorem path_outputs_nodup : ((init ++ [last]).map v.outputOf).Nodup := by
  refine List.Nodup.map_on ?_ (path_nodup wired ledger course)
  intro p left q right same
  exact wired.sound.id_eq (has_of_path wired ledger course left)
    (has_of_path wired ledger course right) same

/-- A pipeline probes a join exactly if it crosses it. -/
theorem count_probes_of_join
    (pipeline : v.Pipeline next (v.sourceDraft source set) source (init ++ [last]) inner)
    {p : NodeId} (inside : v.topology.arena.Has p)
    : inner.stages.countP (·.probesJoin (v.node p).output)
        = if (v.node p).isStarted && decide (p ∈ init ++ [last]) then 1 else 0 := by
  have onPath := fun q => has_of_path (p := q) wired ledger course
  have counted := pipeline.count_probes (v.node p).output (fun _ _ => rfl)
    (path_outputs_nodup wired ledger course)
  have here : (init ++ [last]).countP
        (fun q => (v.node q).isStarted && v.outputOf q == (v.node p).output)
      = (init ++ [last]).countP fun q => (v.node p).isStarted && q == p := by
    refine List.countP_congr fun q member => ?_
    have same : v.outputOf q = (v.node p).output ↔ q = p :=
      ⟨fun same => wired.sound.id_eq (onPath q member) inside same, fun same => same ▸ rfl⟩
    simp only [Bool.and_eq_true, beq_iff_eq, same]
    constructor
    · rintro ⟨started, rfl⟩
      exact ⟨started, rfl⟩
    · rintro ⟨started, rfl⟩
      exact ⟨started, rfl⟩
  have none : (v.sourceDraft source set).probes.contains (v.node p).output = false := rfl
  rw [counted, here, none]
  cases started : (v.node p).isStarted with
  | false => simp
  | true =>
      have count := (path_nodup wired ledger course).count (a := p)
      simpa [List.count_eq_countP] using count

include single in
/-- A join is probed once more exactly if a side comes in that is not the first one. -/
theorem Accounted.probes_after (accounted : Accounted g v.topology followed stages)
    (pipeline : v.Pipeline next (v.sourceDraft source set) source (init ++ [last]) inner)
    (whole : segment = inner.through source) {p : NodeId} (inside : v.topology.arena.Has p)
    (join : (v.node p).atomic.kind = .joinSets)
    : (stages ++ segment.stages).countP (·.probesJoin (v.node p).output)
        = Arena.incoming (followed ++ links (Arena.coursePath source init last)) p - 1 := by
  have before : stages.countP (·.probesJoin (v.node p).output) = Arena.incoming followed p - 1 :=
    accounted.probes p inside join
  have made : segment.stages = inner.stages := by rw [whole]; rfl
  rw [List.countP_append, before, made, count_probes_of_join wired ledger course pipeline inside,
    incoming_after wired ledger course]
  have account : Account g (v.node p).atomic (v.node p).strategy? (Arena.incoming followed p)
      (stages.filter (·.isFor (v.node p).atomic.computation)) := accounted.accounts p inside
  by_cases member : p ∈ init ++ [last]
  · obtain ⟨q, edge, fresh⟩ := exists_fresh_edge wired ledger course member
    have fewer := incoming_lt_arity wired ledger single edge fresh
    rw [join] at fewer
    obtain ⟨state, kind⟩ := (wired.join_iff inside).mpr join
    have kind : (v.node p).kind = .join state := kind
    cases state with
    | notStarted =>
        rw [PhysicalNode.strategy?, kind] at account
        have zero := account.unstarted join
        rw [if_pos member, zero]
        simp [PhysicalNode.isStarted, kind]
    | started strategy hashSet =>
        rw [PhysicalNode.strategy?, kind] at account
        have one := (account.started fewer).1
        simp only [PhysicalNode.isStarted, kind, member, decide_true, Bool.and_true, if_true, one]
  · simp [member]

include single in
/-- The computation of a step that nothing reads stays as it was given. -/
theorem Accounted.unread_after (accounted : Accounted g v.topology followed stages)
    (named : v.topology.graph.Named) (distinct : (g.atomics.map Atomic.computation).Nodup)
    {a : Atomic} (member : a ∈ g.atomics) (other : a.kind = .other)
    (unread : g.consumersOf a.output = [])
    : (segment.apply v.topology).graph.computation a.computation
        = g.computation a.computation := by
  rw [← accounted.unread a member other unread]
  have onPath : last ∈ init ++ [last] := by simp
  have inside := has_of_path wired ledger course onPath
  by_cases same : a.computation = (v.node last).atomic.computation
  · obtain rfl : a = (v.node last).atomic :=
      List.inj_on_of_nodup_map distinct member (wired.known last inside) same
    obtain ⟨q, edge, fresh⟩ := exists_fresh_edge wired ledger course onPath
    have length := length_active wired ledger single edge fresh
    rw [unread] at length
    have kind : (v.node last).kind = .pipeline := (wired.pipeline_iff inside).mpr (.inr other)
    rw [course.graph_of_unread kind (List.eq_nil_of_length_eq_zero length)]
  · rw [Graph.computation, Graph.computation, course.computation_other named same]

include single in
/-- After a planned pipeline its stages are accounted for as well. -/
theorem Accounted.planned (accounted : Accounted g v.topology followed stages)
    (named : v.topology.graph.Named) (distinct : (g.atomics.map Atomic.computation).Nodup)
    (pipeline : v.Pipeline next (v.sourceDraft source set) source (init ++ [last]) inner)
    (whole : segment = inner.through source)
    : Accounted g (segment.apply v.topology)
        (followed ++ links (Arena.coursePath source init last)) (stages ++ segment.stages) := by
  have frame := course.frame
  refine ⟨?_, ?_, ?_, ?_⟩
  · intro p inside
    rw [frame.atomic]
    exact accounted.account_after wired ledger course single named distinct pipeline whole
      (frame.has_iff.mp inside)
  · intro stage member
    rcases List.mem_append.mp member with old | new
    · exact accounted.known stage old
    · obtain ⟨parts, visits, flat⟩ := pipeline.visits named
      have made : segment.stages = parts.flatten := by
        rw [whole]
        exact flat
      obtain ⟨p, onPath, same⟩ :=
        Stage.computation_of_flatten (fun _ _ visit => visit.targets) visits stage (made ▸ new)
      rw [same]
      exact List.mem_map_of_mem (wired.known p (has_of_path wired ledger course onPath))
  · intro p inside join
    rw [frame.atomic] at join
    rw [frame.output]
    exact accounted.probes_after wired ledger course single pipeline whole
      (frame.has_iff.mp inside) join
  · intro a member other unread
    exact accounted.unread_after wired ledger course single named distinct member other unread

end Planned

end DataflowPlan
