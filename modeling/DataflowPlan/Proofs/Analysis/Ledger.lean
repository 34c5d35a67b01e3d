import DataflowPlan.Proofs.Analysis.Course
import DataflowPlan.Proofs.Arena.Mirror

/-! The ledger of planning: which edges pipelines have followed. No edge is followed twice. Queues
hold the consumers whose edges are still to follow, a join is started once one of its sides has come
in, and a node is a source only if what it makes is complete.
-/

namespace DataflowPlan.Arena

abbrev Edge := NodeId × NodeId

/-- A join with a single consumer. Pipelines only cross it, so its queue keeps that consumer. -/
def Solo (arena : Arena) (p : NodeId) : Prop :=
  (arena.node p).atomic.kind = .joinSets ∧ ∃ c, (arena.node p).consumers = [c]

/-- What the node makes is complete: it is a scan, or a pipeline has come in; at a join, on every
side.
-/
def Reached (arena : Arena) (followed : List Edge) (p : NodeId) : Prop :=
  (arena.node p).atomic.kind = .scan
  ∨ (∃ q, (q, p) ∈ followed)
    ∧ ((arena.node p).atomic.kind = .joinSets →
        ∀ q, p ∈ (arena.node q).consumers → (q, p) ∈ followed)

/-- How the edges that were followed show in the arena. -/
structure Ledger (arena : Arena) (followed : List Edge) : Prop where
  unique : followed.Nodup
  edges : ∀ e ∈ followed, e.2 ∈ (arena.node e.1).consumers
  distinct : ∀ p, (arena.node p).active.Nodup
  queued
    : ∀ p,
        ¬ arena.Solo p →
          ∀ c,
            c ∈ (arena.node p).active ↔ c ∈ (arena.node p).consumers ∧ (p, c) ∉ followed
  solo : ∀ p, arena.Solo p → (arena.node p).active = (arena.node p).consumers
  reached : ∀ e ∈ followed, arena.Reached followed e.1
  started
    : ∀ p,
        (∃ strategy hashSet, (arena.node p).IsStarted strategy hashSet)
          ↔ (arena.node p).atomic.kind = .joinSets ∧ ∃ q, (q, p) ∈ followed
  served
    : ∀ p,
        arena.Reached followed p →
          (arena.node p).consumers ≠ [] →
            (arena.node p).sourceSet ≠ none ∨ ∀ c ∈ (arena.node p).consumers, (p, c) ∈ followed
  sources : ∀ p, (arena.node p).sourceSet ≠ none → arena.Reached followed p ∧ ¬ arena.Solo p

theorem Reached.mono {arena : Arena} {followed more : List Edge} {p : NodeId}
    (reached : arena.Reached followed p)
    : arena.Reached (followed ++ more) p := by
  rcases reached with scan | ⟨⟨q, come⟩, sides⟩
  · exact .inl scan
  · exact .inr ⟨⟨q, List.mem_append_left _ come⟩,
      fun join q edge => List.mem_append_left _ (sides join q edge)⟩

/-- A step is complete as soon as one pipeline has come in. -/
theorem Reached.of_step {arena : Arena} {followed : List Edge} {q p : NodeId}
    (come : (q, p) ∈ followed) (step : (arena.node p).atomic.kind ≠ .joinSets)
    : arena.Reached followed p :=
  .inr ⟨⟨q, come⟩, fun join => absurd join step⟩

theorem Frame.solo_iff {after before : Arena} (frame : after.Frame before) (p : NodeId)
    : after.Solo p ↔ before.Solo p := by
  rw [Solo, Solo, frame.atomic, frame.consumers]

theorem Frame.reached_iff {after before : Arena} (frame : after.Frame before)
    (followed : List Edge) (p : NodeId)
    : after.Reached followed p ↔ before.Reached followed p := by
  simp only [Reached, frame.atomic, frame.consumers]

variable {g : Graph}

-----------------------------------------------------------------------------------------------
-- At first
-----------------------------------------------------------------------------------------------

/-- Before anything is planned no edge is followed. -/
theorem Mirrors.ledger {arena : Arena} (mirrors : Mirrors g arena)
    : arena.Ledger [] := by
  have notReached : ∀ p, arena.Reached [] p → (arena.node p).atomic.kind = .scan := by
    intro p reached
    rcases reached with scan | ⟨⟨q, come⟩, -⟩
    · exact scan
    · simp at come
  have inside : ∀ p, (arena.node p).sourceSet ≠ none → arena.Has p := by
    intro p source
    by_contra outside
    rw [node_of_not_has outside] at source
    exact source rfl
  refine ⟨List.nodup_nil, by simp, ?_, ?_, ?_, by simp, ?_, ?_, ?_⟩
  · intro p
    rw [mirrors.active]
    exact mirrors.consumers_nodup p
  · intro p _ c
    simp [mirrors.active]
  · exact fun p _ => mirrors.active p
  · intro p
    constructor
    · rintro ⟨strategy, hashSet, started⟩
      by_cases there : arena.Has p
      · rw [PhysicalNode.IsStarted, mirrors.unstarted p there] at started
        cases kind : (arena.node p).atomic.kind <;> simp [NodeKind.ofAtomic, kind] at started
      · rw [PhysicalNode.IsStarted, node_of_not_has there] at started
        simp [default, instInhabitedPhysicalNode.default, instInhabitedNodeKind.default] at started
    · simp
  · intro p reached read
    have there : arena.Has p := by
      by_contra outside
      exact read (not_has_consumers outside)
    have fits := mirrors.sources p there
    rw [SourceFits, if_pos (notReached p reached)] at fits
    obtain ⟨c, set, -, -, source⟩ := fits
    exact .inl (by simp [source])
  · intro p source
    have fits := mirrors.sources p (inside p source)
    by_cases scan : (arena.node p).atomic.kind = .scan
    · refine ⟨.inl scan, ?_⟩
      rintro ⟨join, -⟩
      simp [scan] at join
    · rw [SourceFits, if_neg scan] at fits
      exact absurd fits source

-----------------------------------------------------------------------------------------------
-- Refusals
-----------------------------------------------------------------------------------------------

/-- A ledger holds of an arena in which only queues are ordered otherwise. -/
theorem Ledger.of_perm {after before : Arena} {followed : List Edge}
    (ledger : before.Ledger followed) (frame : after.Frame before)
    (active : ∀ p, (after.node p).active.Perm (before.node p).active)
    (kind : ∀ p, (after.node p).kind = (before.node p).kind)
    (source : ∀ p, (after.node p).sourceSet = (before.node p).sourceSet)
    : after.Ledger followed := by
  have solo := frame.solo_iff
  have reached := frame.reached_iff followed
  refine ⟨ledger.unique, ?_, ?_, ?_, ?_, ?_, ?_, ?_, ?_⟩
  · intro e member
    rw [frame.consumers]
    exact ledger.edges e member
  · exact fun p => (active p).nodup_iff.mpr (ledger.distinct p)
  · intro p notSolo c
    rw [(active p).mem_iff, frame.consumers]
    exact ledger.queued p (fun was => notSolo ((solo p).mpr was)) c
  · intro p isSolo
    have same := ledger.solo p ((solo p).mp isSolo)
    obtain ⟨-, c, only⟩ := (solo p).mp isSolo
    rw [frame.consumers, only]
    have perm := active p
    rw [same, only] at perm
    exact List.perm_singleton.mp perm
  · exact fun e member => (reached e.1).mpr (ledger.reached e member)
  · intro p
    rw [frame.atomic]
    simp only [PhysicalNode.IsStarted, kind]
    exact ledger.started p
  · intro p isReached read
    rw [frame.consumers] at read ⊢
    rw [source]
    exact ledger.served p ((reached p).mp isReached) read
  · intro p isSource
    rw [source] at isSource
    obtain ⟨isReached, notSolo⟩ := ledger.sources p isSource
    exact ⟨(reached p).mpr isReached, fun is => notSolo ((solo p).mp is)⟩

theorem rotate_perm (node : PhysicalNode) : node.rotate.active.Perm node.active := by
  unfold PhysicalNode.rotate
  cases active : node.active with
  | nil => simp [active]
  | cons front rest =>
      have turned : (rest ++ [front]).Perm ([front] ++ rest) := List.perm_append_comm
      exact turned

theorem kind_rotate (arena : Arena) (id p : NodeId)
    : ((arena.rotate id).node p).kind = (arena.node p).kind := by
  rw [node_rotate]
  split
  · next same =>
      subst same
      unfold PhysicalNode.rotate
      split <;> rfl
  · rfl

theorem sourceSet_rotate (arena : Arena) (id p : NodeId)
    : ((arena.rotate id).node p).sourceSet = (arena.node p).sourceSet := by
  rw [node_rotate]
  split
  · next same =>
      subst same
      unfold PhysicalNode.rotate
      split <;> rfl
  · rfl

theorem Ledger.rotate {arena : Arena} {followed : List Edge} (ledger : arena.Ledger followed)
    (id : NodeId)
    : (arena.rotate id).Ledger followed := by
  refine ledger.of_perm (frame_rotate arena id) ?_ (kind_rotate arena id)
    (sourceSet_rotate arena id)
  intro p
  rw [node_rotate]
  split
  · next same => exact same ▸ rotate_perm _
  · exact .refl _

/-- Nothing was followed from a node that is not complete, so its queue is as long as ever. -/
theorem Ledger.active_perm {arena : Arena} {followed : List Edge} (wired : Wired g arena)
    (ledger : arena.Ledger followed) {p : NodeId} (missing : ¬ arena.Reached followed p)
    : (arena.node p).active.Perm (arena.node p).consumers := by
  by_cases solo : arena.Solo p
  · rw [ledger.solo p solo]
  · refine (List.perm_ext_iff_of_nodup (ledger.distinct p) (wired.consumers_nodup p)).mpr ?_
    intro c
    rw [ledger.queued p solo]
    constructor
    · exact And.left
    · intro edge
      exact ⟨edge, fun come => missing (ledger.reached _ come)⟩

/-- A node is not complete before all edges to it are followed, if only joins read several tuple
sets.
-/
theorem Ledger.not_reached {arena : Arena} {followed : List Edge} (wired : Wired g arena)
    (ledger : arena.Ledger followed) {q p : NodeId} (edge : p ∈ (arena.node q).consumers)
    (fresh : (q, p) ∉ followed)
    (single
      : (arena.node p).atomic.kind ≠ .joinSets →
          ∀ i ∈ (arena.node p).atomic.inputs, ∀ j ∈ (arena.node p).atomic.inputs, i = j)
    : ¬ arena.Reached followed p := by
  rintro (scan | ⟨⟨earlier, come⟩, sides⟩)
  · exact wired.scan_reads_nothing scan q edge
  · by_cases join : (arena.node p).atomic.kind = .joinSets
    · exact fresh (sides join q edge)
    · have same := wired.producer_unique (single join) edge (ledger.edges _ come)
      exact fresh (same ▸ come)

theorem Ledger.consumer_of_active {arena : Arena} {followed : List Edge}
    (ledger : arena.Ledger followed) {p c : NodeId} (queued : c ∈ (arena.node p).active)
    : c ∈ (arena.node p).consumers := by
  by_cases solo : arena.Solo p
  · exact ledger.solo p solo ▸ queued
  · exact ((ledger.queued p solo c).mp queued).1

theorem Ledger.consumer_of_only {arena : Arena} {followed : List Edge}
    (ledger : arena.Ledger followed) {p c : NodeId} (active : (arena.node p).active = [c])
    : c ∈ (arena.node p).consumers :=
  ledger.consumer_of_active (by simp [active])

/-- No more consumers wait at a node than its atomic has. -/
theorem Ledger.length_active_le {arena : Arena} {followed : List Edge}
    (ledger : arena.Ledger followed) (wired : Wired g arena) {p : NodeId} (inside : arena.Has p)
    : (arena.node p).active.length ≤ (g.consumersOf (arena.node p).atomic.output).length := by
  have attached := congrArg List.length (wired.attached p inside).consumers
  rw [List.length_map] at attached
  exact attached ▸ (ledger.distinct p).length_le_of_subset fun c => ledger.consumer_of_active

-----------------------------------------------------------------------------------------------
-- Planned pipelines
-----------------------------------------------------------------------------------------------

section Planned

variable {v : View} {source last : NodeId} {init : List NodeId} {segment : Segment}
  {followed : List Edge}

/-- The path of a course, its source included. -/
def coursePath (source : NodeId) (init : List NodeId) (last : NodeId) : List NodeId :=
  source :: init ++ [last]

/-- The nodes of a course run on to each other along their queues. -/
theorem course_queued (course : v.Course source init last segment) {p c : NodeId}
    (link : (p, c) ∈ links (coursePath source init last))
    : p = source ∧ (∃ others, (v.node source).active = c :: others) ∨ p ∈ init ∧ v.RunsOn p c := by
  obtain ⟨first, others, active, head⟩ := course.first
  cases whole : init ++ [last] with
  | nil => simp at whole
  | cons second rest =>
      rw [coursePath, List.cons_append, whole, links] at link
      rw [whole] at head
      rcases List.mem_cons.mp link with same | later
      · obtain ⟨rfl, rfl⟩ := Prod.mk.inj same
        exact .inl ⟨rfl, others, by rw [active, Option.some.inj head]⟩
      · rw [← whole] at later
        exact .inr ⟨left_of_link later, course.runs _ later⟩

theorem course_active (course : v.Course source init last segment) {p c : NodeId}
    (link : (p, c) ∈ links (coursePath source init last))
    : ∃ others, (v.node p).active = c :: others := by
  rcases course_queued course link with ⟨rfl, found⟩ | ⟨-, runs⟩
  · exact found
  · exact ⟨[], runs.active⟩

variable (wired : Wired g v.topology.arena) (ledger : v.topology.arena.Ledger followed)
  (course : v.Course source init last segment)

include ledger course in
theorem course_edge {p c : NodeId} (link : (p, c) ∈ links (coursePath source init last))
    : c ∈ (v.node p).consumers := by
  obtain ⟨others, active⟩ := course_active course link
  have active : (v.topology.arena.node p).active = c :: others := active
  exact ledger.consumer_of_active (by simp [active])

include ledger course in
theorem course_head_edge : ∀ c ∈ (init ++ [last]).head?, c ∈ (v.node source).consumers := by
  intro c head
  obtain ⟨first, others, active, isFirst⟩ := course.first
  obtain rfl := Option.some.inj (isFirst.symm.trans head)
  have active : (v.topology.arena.node source).active = first :: others := active
  exact ledger.consumer_of_active (by simp [active])

include ledger course in
/-- The source of a course is complete and no join that pipelines only cross. -/
theorem source_complete
    : v.topology.arena.Reached followed source ∧ ¬ v.topology.arena.Solo source := by
  obtain ⟨set, isSource⟩ := course.isSource
  have isSource : (v.topology.arena.node source).sourceSet = some set := isSource
  exact ledger.sources source (by simp [isSource])

/-- Some edge leads to the node where a course ends. -/
theorem exists_link_last (source : NodeId) (init : List NodeId) (last : NodeId)
    : ∃ q, (q, last) ∈ links (coursePath source init last) :=
  exists_link_to source (List.mem_append_right init (List.mem_singleton_self last))

include wired ledger course

theorem has_last : v.topology.arena.Has last := by
  obtain ⟨q, link⟩ := exists_link_last source init last
  exact wired.has_consumer (course_edge ledger course link)

theorem coursePath_nodup : (coursePath source init last).Nodup := by
  obtain ⟨rank, -, rises⟩ := wired.exists_rank
  exact nodup_of_links fun e link => rises e.1 e.2 (course_edge ledger course link)

/-- From a node on the way the course runs on to the next one. -/
theorem exists_runsOn {p : NodeId} (inner : p ∈ init)
    : ∃ c, (p, c) ∈ links (coursePath source init last) ∧ v.RunsOn p c := by
  obtain ⟨c, link⟩ := exists_link_from last (List.mem_cons_of_mem source inner)
  rcases course_queued course link with ⟨rfl, -⟩ | ⟨-, runs⟩
  · have path := List.Nodup.of_append_left (coursePath_nodup wired ledger course)
    exact absurd inner (List.nodup_cons.mp path).1
  · exact ⟨c, link, runs⟩

/-- A course follows no edge that was followed before.
Witness: induction on the rank. From most nodes the queue tells; a join that is crossed and has one
consumer was not complete before, as the edge that leads to it was not followed.
-/
theorem course_fresh {e : Edge} (link : e ∈ links (coursePath source init last))
    : e ∉ followed := by
  obtain ⟨rank, -, rises⟩ := wired.exists_rank
  induction place : rank e.1 using Nat.strongRecOn generalizing e with
  | _ n ih =>
      obtain ⟨p, c⟩ := e
      intro again
      obtain ⟨others, active⟩ := course_active course link
      by_cases solo : v.topology.arena.Solo p
      · have inner : p ∈ init := by
          rcases course_queued course link with ⟨rfl, -⟩ | ⟨inner, -⟩
          · exact absurd solo (source_complete ledger course).2
          · exact inner
        obtain ⟨q, before⟩ := exists_link_to source (List.mem_append_left [last] inner)
        have edge := course_edge ledger course before
        have fresh := ih (rank q) (place ▸ rises q p edge) before rfl
        rcases ledger.reached _ again with scan | ⟨-, sides⟩
        · exact absurd scan (by simp [solo.1])
        · exact fresh (sides solo.1 q edge)
      · have queued : c ∈ (v.topology.arena.node p).active := by
          rw [show (v.topology.arena.node p).active = _ from active]
          simp
        exact ((ledger.queued p solo c).mp queued).2 again

/-- A join that a pipeline crosses is complete from then on: the other side came in before.
Witness: of the two sides one started the join, and the course follows the other.
-/
theorem reached_of_crossed {q p : NodeId} (link : (q, p) ∈ links (coursePath source init last))
    (started : ∃ strategy hashSet, (v.node p).IsStarted strategy hashSet)
    : v.topology.arena.Reached (followed ++ links (coursePath source init last)) p := by
  obtain ⟨join, earlier, come⟩ := (ledger.started p).mp started
  have edge := course_edge ledger course link
  obtain ⟨left, right, -, sides⟩ := wired.join_producers (wired.has_consumer edge) join
  have differ : q ≠ earlier := by
    rintro rfl
    exact course_fresh wired ledger course link come
  refine .inr ⟨⟨q, List.mem_append_right _ link⟩, fun _ other toJoin => ?_⟩
  have here := (sides q).mp edge
  have before := (sides earlier).mp (ledger.edges _ come)
  have there := (sides other).mp toJoin
  have either : other = q ∨ other = earlier := by
    rcases here with rfl | rfl <;> rcases before with rfl | rfl <;> rcases there with rfl | rfl <;>
      simp_all
  rcases either with rfl | rfl
  · exact List.mem_append_right _ link
  · exact List.mem_append_left _ come

/-- An inner node of a course is complete from then on. -/
theorem reached_of_inner {q p c : NodeId} (link : (q, p) ∈ links (coursePath source init last))
    (runs : v.RunsOn p c)
    : v.topology.arena.Reached (followed ++ links (coursePath source init last)) p := by
  rcases runs.kind with step | started
  · refine .of_step (List.mem_append_right _ link) ?_
    have inside := wired.has_consumer (course_edge ledger course link)
    rcases (wired.pipeline_iff inside).mp step with scan | other
    · simp [scan]
    · simp [other]
  · exact reached_of_crossed wired ledger course link started

/-- What starts a link of the course is complete. -/
theorem reached_left {p c : NodeId} (link : (p, c) ∈ links (coursePath source init last))
    : v.topology.arena.Reached (followed ++ links (coursePath source init last)) p := by
  rcases course_queued course link with ⟨rfl, -⟩ | ⟨inner, runs⟩
  · exact (source_complete ledger course).1.mono
  · obtain ⟨q, before⟩ := exists_link_to source (List.mem_append_left [last] inner)
    exact reached_of_inner wired ledger course before runs

/-- A queue that loses its front loses the consumer that the course goes to. -/
theorem mem_active_of_link {p c : NodeId} (link : (p, c) ∈ links (coursePath source init last))
    (other : NodeId)
    : other ∈ (v.node p).active.drop 1
        ↔ other ∈ (v.node p).active
          ∧ (p, other) ∉ links (coursePath source init last) := by
  obtain ⟨others, active⟩ := course_active course link
  have unique := ledger.distinct p
  rw [show (v.topology.arena.node p).active = c :: others from active] at unique
  have path := coursePath_nodup wired ledger course
  rw [active, List.drop_one, List.tail_cons, List.mem_cons]
  constructor
  · intro member
    refine ⟨.inr member, fun again => ?_⟩
    have same := (Prod.mk.inj (link_unique path link again (.inl rfl))).2
    exact (List.nodup_cons.mp unique).1 (same ▸ member)
  · rintro ⟨rfl | member, unlinked⟩
    · exact absurd link unlinked
    · exact member

/-- A node on the path that keeps its front is the last one or a join with one consumer. -/
theorem unlinked_of_kept {p c : NodeId} (kept : (source :: v.steps init).count p = 0)
    (notSolo : ¬ v.topology.arena.Solo p)
    : (p, c) ∉ links (coursePath source init last) := by
  intro link
  simp only [List.count_eq_zero, List.mem_cons, not_or] at kept
  rcases course_queued course link with ⟨rfl, -⟩ | ⟨inner, runs⟩
  · exact kept.1 rfl
  · rcases runs.kind with step | started
    · exact kept.2 (List.mem_filter.mpr ⟨inner, by simp [step]⟩)
    · obtain ⟨join, -⟩ := (ledger.started p).mp started
      obtain ⟨q, before⟩ := exists_link_to source (List.mem_append_left [last] inner)
      have missing : ¬ v.topology.arena.Reached followed p := by
        rintro (scan | ⟨-, sides⟩)
        · simp [scan] at join
        · exact course_fresh wired ledger course before
            (sides join q (course_edge ledger course before))
      have perm := ledger.active_perm wired missing
      rw [show (v.topology.arena.node p).active = [c] from runs.active] at perm
      exact notSolo ⟨join, c, List.perm_singleton.mp perm.symm⟩

/-- Along a course each queue that is taken from loses one consumer. -/
theorem count_le_one (p : NodeId) : (source :: v.steps init).count p ≤ 1 := by
  have path := coursePath_nodup wired ledger course
  have sub : (source :: v.steps init).Sublist (coursePath source init last) := by
    refine List.Sublist.cons_cons source ?_
    exact List.filter_sublist.trans (List.sublist_append_left init [last])
  exact List.nodup_iff_count_le_one.mp (sub.nodup path) p

theorem queued_after {p : NodeId} (notSolo : ¬ v.topology.arena.Solo p) (c : NodeId)
    : c ∈ ((segment.apply v.topology).arena.node p).active
        ↔ c ∈ (v.node p).consumers
          ∧ (p, c) ∉ followed ++ links (coursePath source init last) := by
  have before : c ∈ (v.node p).active ↔ c ∈ (v.node p).consumers ∧ (p, c) ∉ followed :=
    ledger.queued p notSolo c
  rw [course.active, List.mem_append, not_or, ← and_assoc, ← before]
  by_cases kept : (source :: v.steps init).count p = 0
  · rw [kept, List.drop_zero]
    exact ⟨fun member => ⟨member, unlinked_of_kept wired ledger course kept notSolo⟩, And.left⟩
  · have once : (source :: v.steps init).count p = 1 := by
      have below := count_le_one wired ledger course p
      omega
    have member : p ∈ source :: init := by
      have listed := List.count_pos_iff.mp (Nat.pos_of_ne_zero kept)
      rcases List.mem_cons.mp listed with rfl | step
      · simp
      · exact List.mem_cons_of_mem _ (List.mem_filter.mp step).1
    obtain ⟨first, link⟩ := exists_link_from last member
    rw [once]
    exact mem_active_of_link wired ledger course link c

/-- Joins are started by the first pipeline that comes in.
Witness: a join on the path is the last node or was started before, and then came in earlier.
-/
theorem started_after (p : NodeId)
    : (∃ strategy hashSet,
          ((segment.apply v.topology).arena.node p).IsStarted strategy hashSet)
        ↔ (v.node p).atomic.kind = .joinSets
          ∧ ∃ q, (q, p) ∈ followed ++ links (coursePath source init last) := by
  have before := ledger.started p
  obtain ⟨q, link⟩ := exists_link_last source init last
  have inside := has_last wired ledger course
  by_cases built : p = last ∧ (v.node last).kind = .join .notStarted
  · obtain ⟨rfl, kind⟩ := built
    refine ⟨fun _ => ⟨?_, q, List.mem_append_right _ link⟩, fun _ => course.started inside kind⟩
    exact (wired.join_iff inside).mp ⟨_, kind⟩
  · have other : p ≠ last ∨ (v.node last).kind ≠ .join .notStarted := by
      by_contra both
      rw [not_or, not_not, not_not] at both
      exact built both
    simp only [PhysicalNode.IsStarted, course.kind other]
    constructor
    · intro started
      obtain ⟨join, earlier, come⟩ := before.mp started
      exact ⟨join, earlier, List.mem_append_left _ come⟩
    · rintro ⟨join, earlier, come⟩
      rcases List.mem_append.mp come with old | new
      · exact before.mpr ⟨join, earlier, old⟩
      · have there := wired.has_consumer (course_edge ledger course new)
        obtain ⟨state, kind⟩ := (wired.join_iff there).mpr join
        cases state with
        | started strategy hashSet => exact ⟨strategy, hashSet, kind⟩
        | notStarted =>
            have isLast : p = last := by
              rcases List.mem_append.mp (right_of_link new) with inner | single
              · obtain ⟨c, -, runs⟩ := exists_runsOn wired ledger course inner
                have kinds := runs.kind
                simp [PhysicalNode.IsStarted, View.node, kind] at kinds
              · exact List.mem_singleton.mp single
            subst isLast
            exact absurd ⟨rfl, kind⟩ built

omit wired ledger course in
/-- Some edge of the course leads to a node that it completes. -/
theorem exists_link_of_completed {p : NodeId} (missing : ¬ v.topology.arena.Reached followed p)
    (reached
      : v.topology.arena.Reached (followed ++ links (coursePath source init last)) p)
    : ∃ q, (q, p) ∈ links (coursePath source init last) := by
  by_contra none
  refine missing (reached.imp_right fun ⟨⟨q, come⟩, sides⟩ => ⟨⟨q, ?_⟩, fun join r edge => ?_⟩)
  · exact (List.mem_append.mp come).resolve_right fun new => none ⟨q, new⟩
  · exact (List.mem_append.mp (sides join r edge)).resolve_right fun new => none ⟨r, new⟩

/-- One course does not complete a join that is not started: neither side came in before, and only
one comes in now.
-/
theorem not_reached_of_notStarted {p : NodeId} (inside : v.topology.arena.Has p)
    (kind : (v.node p).kind = .join .notStarted)
    : ¬ v.topology.arena.Reached (followed ++ links (coursePath source init last)) p := by
  have join := (wired.join_iff inside).mp ⟨_, kind⟩
  obtain ⟨left, right, differ, sides⟩ := wired.join_producers inside join
  have notBefore : ∀ r, (r, p) ∉ followed := by
    intro r come
    obtain ⟨strategy, hashSet, started⟩ := (ledger.started p).mpr ⟨join, r, come⟩
    rw [PhysicalNode.IsStarted, show (v.topology.arena.node p).kind = _ from kind] at started
    simp at started
  rintro (scan | ⟨-, complete⟩)
  · simp [scan] at join
  · have now : ∀ r, r = left ∨ r = right → (r, p) ∈ links (coursePath source init last) := by
      intro r side
      exact (List.mem_append.mp (complete join r ((sides r).mpr side))).resolve_left (notBefore r)
    have same := link_unique (coursePath_nodup wired ledger course) (now left (.inl rfl))
      (now right (.inr rfl)) (.inr rfl)
    exact differ (Prod.mk.inj same).1

/-- A node that the course completes and that has consumers is a source or is passed at once. -/
theorem served_of_completed {p : NodeId} (missing : ¬ v.topology.arena.Reached followed p)
    (reached
      : v.topology.arena.Reached (followed ++ links (coursePath source init last)) p)
    (read : (v.node p).consumers ≠ [])
    : ((segment.apply v.topology).arena.node p).sourceSet ≠ none
      ∨ ∀ c ∈ (v.node p).consumers, (p, c) ∈ followed ++ links (coursePath source init last) := by
  obtain ⟨q, link⟩ := exists_link_of_completed missing reached
  have inside := wired.has_consumer (course_edge ledger course link)
  have perm : (v.node p).active.Perm (v.node p).consumers := ledger.active_perm wired missing
  rcases List.mem_append.mp (right_of_link link) with inner | single
  · obtain ⟨c, out, runs⟩ := exists_runsOn wired ledger course inner
    rw [runs.active] at perm
    refine .inr fun other member => ?_
    rw [List.perm_singleton.mp perm.symm, List.mem_singleton] at member
    exact member ▸ List.mem_append_right _ out
  · have isLast := List.mem_singleton.mp single
    subst isLast
    have waiting : (v.node p).active ≠ [] := by
      intro none
      rw [none] at perm
      exact read (List.perm_nil.mp perm.symm)
    have begun : (v.node p).kind ≠ .join .notStarted := fun kind =>
      not_reached_of_notStarted wired ledger course inside kind reached
    have source := course.newSource
    rw [if_neg (by rintro (isBuilt | none); exacts [begun isBuilt, waiting none])] at source
    obtain ⟨set, made⟩ := source
    refine .inl ?_
    rw [course.sourceSet_last inside, made]
    simp

/-- A source is complete and no join that pipelines only cross. -/
theorem sources_after {p : NodeId}
    (isSource : ((segment.apply v.topology).arena.node p).sourceSet ≠ none)
    : v.topology.arena.Reached (followed ++ links (coursePath source init last)) p
      ∧ ¬ v.topology.arena.Solo p := by
  obtain ⟨q, link⟩ := exists_link_last source init last
  have inside := has_last wired ledger course
  have old : (v.node p).sourceSet ≠ none →
      v.topology.arena.Reached (followed ++ links (coursePath source init last)) p
        ∧ ¬ v.topology.arena.Solo p := by
    intro was
    obtain ⟨reached, notSolo⟩ := ledger.sources p was
    exact ⟨reached.mono, notSolo⟩
  by_cases isLast : p = last
  · subst isLast
    have made := course.newSource
    split at made
    · rw [course.sourceSet_last inside, made] at isSource
      exact old isSource
    · next open' =>
        rw [not_or] at open'
        by_cases join : (v.topology.arena.node p).atomic.kind = .joinSets
        · obtain ⟨state, kind⟩ := (wired.join_iff inside).mpr join
          cases state with
          | notStarted => exact absurd kind open'.1
          | started strategy hashSet =>
              refine ⟨reached_of_crossed wired ledger course link ⟨strategy, hashSet, kind⟩, ?_⟩
              intro solo
              obtain ⟨closing, closes, -, -⟩ := course.closes
              have shared := closes.shared kind
              have same := ledger.solo p solo
              obtain ⟨-, c, only⟩ := solo
              rw [show (v.node p).active = _ from same, only] at shared
              simp at shared
        · exact ⟨.of_step (List.mem_append_right _ link) join, fun solo => join solo.1⟩
  · rw [course.sourceSet_other isLast] at isSource
    exact old isSource

/-- A course takes nothing from the queues of joins that pipelines only cross. -/
theorem active_of_solo {p : NodeId} (solo : v.topology.arena.Solo p)
    : ((segment.apply v.topology).arena.node p).active = (v.node p).consumers := by
  have kept : (source :: v.steps init).count p = 0 := by
    refine List.count_eq_zero.mpr fun member => ?_
    rcases List.mem_cons.mp member with rfl | step
    · exact (source_complete ledger course).2 solo
    · obtain ⟨c, edge⟩ := solo.2
      have inside : v.topology.arena.Has p := has_of_edge (c := c) (by simp [edge])
      have kind : (v.node p).kind = .pipeline := by
        simpa using (List.mem_filter.mp step).2
      rcases (wired.pipeline_iff inside).mp kind with scan | other
      · simp [Solo, scan] at solo
      · simp [Solo, other] at solo
  rw [course.active, kept, List.drop_zero]
  exact ledger.solo p solo

/-- A complete node that has consumers is a source or all of them are planned. -/
theorem served_after {p : NodeId}
    (reached
      : v.topology.arena.Reached (followed ++ links (coursePath source init last)) p)
    (read : (v.node p).consumers ≠ [])
    : ((segment.apply v.topology).arena.node p).sourceSet ≠ none
      ∨ ∀ c ∈ (v.node p).consumers, (p, c) ∈ followed ++ links (coursePath source init last) := by
  by_cases before : v.topology.arena.Reached followed p
  · rcases ledger.served p before read with isSource | all
    · refine .inl ?_
      by_cases isLast : p = last
      · subst isLast
        rw [course.sourceSet_last (has_last wired ledger course)]
        cases segment.newSource with
        | none => exact isSource
        | some pair => simp
      · rw [course.sourceSet_other isLast]
        exact isSource
    · exact .inr fun c edge => List.mem_append_left _ (all c edge)
  · exact served_of_completed wired ledger course before reached read

/-- Planning a pipeline adds the edges of its course to the ledger. -/
theorem Ledger.planned
    : (segment.apply v.topology).arena.Ledger
        (followed ++ links (coursePath source init last)) := by
  have frame := course.frame
  have solo := frame.solo_iff
  have reached := frame.reached_iff
  refine ⟨?_, ?_, ?_, ?_, ?_, ?_, ?_, ?_, ?_⟩
  · refine List.nodup_append.mpr
      ⟨ledger.unique, links_nodup (coursePath_nodup wired ledger course), ?_⟩
    intro e old f new same
    exact course_fresh wired ledger course new (same ▸ old)
  · intro e member
    rw [frame.consumers]
    rcases List.mem_append.mp member with old | new
    · exact ledger.edges e old
    · exact course_edge ledger course new
  · intro p
    rw [course.active]
    exact (ledger.distinct p).sublist (List.drop_sublist _ _)
  · intro p notSolo c
    rw [frame.consumers]
    exact queued_after wired ledger course (fun was => notSolo ((solo p).mpr was)) c
  · intro p isSolo
    rw [frame.consumers]
    exact active_of_solo wired ledger course ((solo p).mp isSolo)
  · intro e member
    rw [reached]
    rcases List.mem_append.mp member with old | new
    · exact (ledger.reached e old).mono
    · exact reached_left wired ledger course new
  · intro p
    rw [frame.atomic]
    exact started_after wired ledger course p
  · intro p isReached read
    rw [reached] at isReached
    rw [frame.consumers] at read ⊢
    exact served_after wired ledger course isReached read
  · intro p isSource
    rw [reached, solo]
    exact sources_after wired ledger course isSource

end Planned

-----------------------------------------------------------------------------------------------
-- At last
-----------------------------------------------------------------------------------------------

/-- Once no source has consumers to plan, every edge has been followed.
Witness: induction on the rank. What a node makes is complete when all edges to it are followed, so
the node is a source with an empty queue, or was passed at once.
-/
theorem Ledger.all_followed {arena : Arena} {followed : List Edge} (wired : Wired g arena)
    (ledger : arena.Ledger followed)
    (idle : ∀ p, (arena.node p).sourceSet ≠ none → (arena.node p).active = [])
    : ∀ p, ∀ c ∈ (arena.node p).consumers, (p, c) ∈ followed := by
  obtain ⟨rank, -, rises⟩ := wired.exists_rank
  intro p
  induction place : rank p using Nat.strongRecOn generalizing p with
  | _ n ih =>
      intro c edge
      have inside := has_of_edge edge
      have reached : arena.Reached followed p := by
        by_cases scan : (arena.node p).atomic.kind = .scan
        · exact .inl scan
        · have before : ∀ q, p ∈ (arena.node q).consumers → (q, p) ∈ followed :=
            fun q toNode => ih (rank q) (place ▸ rises q p toNode) q rfl p toNode
          obtain ⟨q, toNode⟩ := wired.exists_edge_to inside scan
          exact .inr ⟨⟨q, before q toNode⟩, fun _ => before⟩
      rcases ledger.served p reached (List.ne_nil_of_mem edge) with isSource | all
      · by_contra waiting
        have queued := (ledger.queued p (ledger.sources p isSource).2 c).mpr ⟨edge, waiting⟩
        simp [idle p isSource] at queued
      · exact all c edge

end DataflowPlan.Arena
