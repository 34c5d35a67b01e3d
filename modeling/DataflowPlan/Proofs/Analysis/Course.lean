import DataflowPlan.Proofs.Analysis.Effect
import DataflowPlan.Proofs.Graph.Kept
import Mathlib.Data.List.Chain
import Mathlib.Data.List.Count

/-! The course of a planned pipeline: the edges that it follows from its source to the node where it
ends, and what planning it changes along them.
-/

namespace DataflowPlan

-----------------------------------------------------------------------------------------------
-- Edges of a path
-----------------------------------------------------------------------------------------------

/-- The edges from each node of a path to the one behind it. -/
def links : List NodeId → List (NodeId × NodeId)
  | first :: second :: rest => (first, second) :: links (second :: rest)
  | [_] | [] => []

theorem isChain_of_links {relation : NodeId → NodeId → Prop} {path : List NodeId}
    (linked : ∀ e ∈ links path, relation e.1 e.2)
    : path.IsChain relation := by
  induction path with
  | nil => exact .nil
  | cons first rest ih =>
      cases rest with
      | nil => exact .singleton first
      | cons second rest =>
          refine List.isChain_cons_cons.mpr ⟨linked (first, second) (by simp [links]), ?_⟩
          exact ih fun e member => linked e (by simp [links, member])

/-- A path along which ranks rise comes to no node twice. -/
theorem nodup_of_links {rank : NodeId → Nat} {path : List NodeId}
    (rises : ∀ e ∈ links path, rank e.1 < rank e.2)
    : path.Nodup := by
  have chain : path.IsChain fun p c => rank p < rank c := isChain_of_links rises
  have trans : Trans (fun p c => rank p < rank c) (fun p c => rank p < rank c)
      (fun p c => rank p < rank c) := ⟨fun left right => Nat.lt_trans left right⟩
  refine chain.pairwise.imp ?_
  intro p c below same
  subst same
  exact Nat.lt_irrefl _ below

theorem left_of_link {init : List NodeId} {last p c : NodeId}
    (link : (p, c) ∈ links (init ++ [last]))
    : p ∈ init := by
  induction init with
  | nil => simp [links] at link
  | cons first rest ih =>
      cases rest with
      | nil =>
          simp only [List.cons_append, List.nil_append, links, List.mem_singleton,
            Prod.mk.injEq] at link
          simp [link.1]
      | cons second rest =>
          simp only [List.cons_append, links, List.mem_cons, Prod.mk.injEq] at link
          rcases link with ⟨rfl, -⟩ | later
          · simp
          · exact List.mem_cons_of_mem _ (ih (by simpa using later))

theorem right_of_link {first p c : NodeId} {path : List NodeId}
    (link : (p, c) ∈ links (first :: path))
    : c ∈ path := by
  induction path generalizing first with
  | nil => simp [links] at link
  | cons second rest ih =>
      simp only [links, List.mem_cons, Prod.mk.injEq] at link
      rcases link with ⟨-, rfl⟩ | later
      · simp
      · exact List.mem_cons_of_mem _ (ih later)

theorem exists_link_from {init : List NodeId} {p : NodeId} (last : NodeId) (member : p ∈ init)
    : ∃ c, (p, c) ∈ links (init ++ [last]) := by
  induction init with
  | nil => simp at member
  | cons first rest ih =>
      cases rest with
      | nil =>
          have same : p = first := by simpa using member
          exact ⟨last, by simp [links, same]⟩
      | cons second rest =>
          rcases List.mem_cons.mp member with rfl | later
          · exact ⟨second, by simp [links]⟩
          · obtain ⟨c, link⟩ := ih later
            exact ⟨c, by simpa [links] using .inr link⟩

theorem exists_link_to (first : NodeId) {c : NodeId} {path : List NodeId} (member : c ∈ path)
    : ∃ p, (p, c) ∈ links (first :: path) := by
  induction path generalizing first with
  | nil => simp at member
  | cons second rest ih =>
      rcases List.mem_cons.mp member with rfl | later
      · exact ⟨first, by simp [links]⟩
      · obtain ⟨p, link⟩ := ih second later
        exact ⟨p, by simp [links, link]⟩

/-- The edges of a path without repetition have no two of one left end, nor of one right end. -/
theorem link_unique {path : List NodeId} (unique : path.Nodup) {e f : NodeId × NodeId}
    (left : e ∈ links path) (right : f ∈ links path) (meet : e.1 = f.1 ∨ e.2 = f.2)
    : e = f := by
  induction path with
  | nil => simp [links] at left
  | cons first rest ih =>
      cases rest with
      | nil => simp [links] at left
      | cons second rest =>
          obtain ⟨firstFresh, unique⟩ := List.nodup_cons.mp unique
          obtain ⟨secondFresh, -⟩ := List.nodup_cons.mp unique
          -- an edge of the rest neither leaves the first node nor arrives at the second
          have apart : ∀ h ∈ links (second :: rest), h.1 ≠ first ∧ h.2 ≠ second := by
            intro h member
            refine ⟨?_, fun same => secondFresh (same ▸ right_of_link member)⟩
            intro same
            rw [← List.dropLast_concat_getLast (List.cons_ne_nil second rest)] at member
            have inRest := List.dropLast_subset _ (left_of_link member)
            exact firstFresh (same ▸ inRest)
          rcases List.mem_cons.mp left with rfl | leftLater
          · rcases List.mem_cons.mp right with rfl | rightLater
            · rfl
            · obtain ⟨one, two⟩ := apart f rightLater
              exact (meet.elim (fun same => one same.symm) (fun same => two same.symm)).elim
          · rcases List.mem_cons.mp right with rfl | rightLater
            · obtain ⟨one, two⟩ := apart e leftLater
              exact (meet.elim one two).elim
            · exact ih unique leftLater rightLater

theorem links_nodup {path : List NodeId} (unique : path.Nodup)
    : (links path).Nodup := by
  induction path with
  | nil => simp [links]
  | cons first rest ih =>
      cases rest with
      | nil => simp [links]
      | cons second rest =>
          obtain ⟨-, rest'⟩ := List.nodup_cons.mp unique
          refine List.nodup_cons.mpr ⟨?_, ih rest'⟩
          intro again
          exact (List.nodup_cons.mp rest').1 (right_of_link again)

-----------------------------------------------------------------------------------------------
-- Closings
-----------------------------------------------------------------------------------------------

namespace View

variable {v : View}

/-- The node is where a pipeline ends, on arrival or after it crossed the join. -/
inductive Closes (v : View) (last : NodeId) (segment : Segment) : Prop
  | ends {next draft prev} (ending : v.Ends next draft prev last segment)
  | gathers {next draft prev strategy hashSet}
    (started : (v.node last).IsStarted strategy hashSet) (shared : 2 ≤ (v.node last).active.length)
    (made : v.materialize next draft prev last = .ok segment)

/-- Where the output of a closing goes if no join is built: nowhere that is read on, to the set that
the computation names, to a set of the job's that it is redirected to, or to a hash table that one
consumer reads.
-/
inductive Placed (v : View) (last : NodeId) (segment : Segment) : Prop
  | nowhere (source : segment.newSource = none) (changes : segment.changes = [])
  | kept {c sink set} (found : v.computation last = .ok c) (keeps : c.materializeOutput = true)
    (names : c.sinkSet = .ok sink) (key : set.key = sink.key)
    (source : segment.newSource = some (last, set)) (changes : segment.changes = [])
    (kind : set.kind = .user)
  | redirected {c set} (found : v.computation last = .ok c) (keeps : c.materializeOutput = false)
    (key : set.key = setKey v.jobId (v.outputOf last))
    (source : segment.newSource = some (last, set))
    (changes : segment.changes = [.redirect c.name v.jobId (v.outputOf last)])
    (kind : set.kind = .intermediate)
  | handed {set} (kind : (v.node last).kind = .aggregation)
    (key : set.key = setKey v.jobId (v.outputOf last ++ "_aggregationResult"))
    (source : segment.newSource = some (last, set)) (changes : segment.changes = [])

theorem placed_of_placement {last : NodeId} {c : Computation} {place : Placement} {set : SetId}
    {segment : Segment} (found : v.computation last = .ok c)
    (placed : v.placement last c = .ok place) (key : set.key = place.sink.key)
    (kind : set.kind = place.sink.kind) (source : segment.newSource = some (last, set))
    (changes : segment.changes = place.changes)
    : v.Placed last segment := by
  rcases placement_eq_ok placed with ⟨keeps, names, -, none⟩ | ⟨keeps, sink, -, redirects⟩
  · have user := Computation.user_of_set? (Computation.set?_of_sinkSet names)
    exact .kept found keeps names key source (changes.trans none) (kind.trans user)
  · rw [sink] at key kind
    exact .redirected found keeps (key.trans (by simp [jobSet, SetId.key, SetId.intermediate]))
      source (changes.trans redirects) kind

theorem placed_of_materialize {next : StageId} {draft : TupleSetDraft} {prev last : NodeId}
    {segment : Segment} (made : v.materialize next draft prev last = .ok segment)
    : v.Placed last segment := by
  obtain ⟨c, place, stage, found, placed, -, rfl⟩ := materialize_eq_ok made
  exact placed_of_placement found placed rfl rfl rfl rfl

theorem placed_of_aggregate {next : StageId} {draft : TupleSetDraft} {prev last : NodeId}
    {segment : Segment} (kind : (v.node last).kind = .aggregation)
    (made : v.aggregate next draft prev last = .ok segment)
    : v.Placed last segment := by
  obtain ⟨c, place, materialized, shuffle, merge, found, placed, -, -, rfl⟩ := aggregate_eq_ok made
  cases aggregatePlacement_eq_ok placed with
  | unread none names => exact .nowhere (by simp [PhysicalNode.hasConsumers, none]) rfl
  | kept one keeps names =>
      have user := Computation.user_of_set? (Computation.set?_of_sinkSet names)
      exact .kept found keeps names rfl (by simp [PhysicalNode.hasConsumers, one]) rfl user
  | handed one unkept =>
      exact .handed kind rfl (if_pos (PhysicalNode.hasConsumers_iff.mpr (by simp [one]))) rfl
  | shared several own =>
      have read := PhysicalNode.hasConsumers_of_shared several
      exact placed_of_placement found own rfl rfl (if_pos read) rfl

theorem placed_of_partition {next : StageId} {draft : TupleSetDraft} {prev last : NodeId}
    {segment : Segment} (made : v.partition next draft prev last = .ok segment)
    : v.Placed last segment := by
  obtain ⟨c, place, stage, found, placed, -, rfl⟩ := partition_eq_ok made
  rcases partitionPlacement_eq_ok placed with ⟨unread, _, -, rfl⟩ | ⟨read, own, kept, rfl⟩
  · exact .nowhere (by simp [PhysicalNode.hasConsumers, unread]) rfl
  · have same : (own.sink.withPageSize v.config.pageSize).key = own.sink.key := rfl
    exact placed_of_placement found kept same rfl
      (if_pos (PhysicalNode.hasConsumers_iff.mpr read)) rfl

/-- What a closing changes: the join that is built there is started, or the output is placed. -/
theorem Closes.changes {last : NodeId} {segment : Segment} (closes : v.Closes last segment)
    : ((v.node last).kind = .join .notStarted
          ∧ ∃ c strategy hashSet,
              v.computation last = .ok c
              ∧ segment.changes = [.startJoin last c.name strategy hashSet])
      ∨ ((v.node last).kind ≠ .join .notStarted ∧ v.Placed last segment) := by
  cases closes with
  | ends ending =>
      cases ending with
      | output kind unread made =>
          obtain ⟨c, sink, stage, -, -, -, rfl⟩ := output_eq_ok made
          exact .inr ⟨by simp [kind], .nowhere rfl rfl⟩
      | materialize kind shared made => exact .inr ⟨by simp [kind], placed_of_materialize made⟩
      | aggregate kind made => exact .inr ⟨by simp [kind], placed_of_aggregate kind made⟩
      | partition kind made => exact .inr ⟨by simp [kind], placed_of_partition made⟩
      | build kind read accepted made =>
          obtain ⟨c, stage, found, -, rfl⟩ := joinBuild_eq_ok made
          exact .inl ⟨kind, c, _, _, found, rfl⟩
  | gathers started shared made =>
      exact .inr ⟨by rw [started]; simp, placed_of_materialize made⟩

theorem Placed.redirects {last : NodeId} {segment : Segment} (placed : v.Placed last segment)
    : ∀ change ∈ segment.changes, ∃ name, change = .redirect name v.jobId (v.outputOf last) := by
  intro change member
  cases placed with
  | nowhere source changes => simp [changes] at member
  | kept found keeps names key source changes => simp [changes] at member
  | redirected found keeps key source changes => exact ⟨_, by simpa [changes] using member⟩
  | handed kind key source changes => simp [changes] at member

/-- The node where a pipeline ends is a source from then on exactly if it has consumers, unless a
join is built there.
-/
theorem Closes.newSource {last : NodeId} {segment : Segment} (closes : v.Closes last segment)
    : if (v.node last).kind = .join .notStarted ∨ (v.node last).active = [] then
        segment.newSource = none
      else ∃ set, segment.newSource = some (last, set) := by
  cases closes with
  | ends ending =>
      cases ending with
      | output kind unread made =>
          obtain ⟨c, sink, stage, -, -, -, rfl⟩ := output_eq_ok made
          simp [unread]
      | materialize kind shared made =>
          obtain ⟨c, place, stage, -, -, -, rfl⟩ := materialize_eq_ok made
          have read : (v.node last).active ≠ [] := by
            intro none
            simp [none] at shared
          simp [kind, read]
      | aggregate kind made =>
          obtain ⟨c, place, materialized, shuffle, merge, -, -, -, -, rfl⟩ := aggregate_eq_ok made
          cases active : (v.node last).active <;> simp [kind, PhysicalNode.hasConsumers, active]
      | partition kind made =>
          obtain ⟨c, place, stage, -, -, -, rfl⟩ := partition_eq_ok made
          cases active : (v.node last).active <;> simp [kind, PhysicalNode.hasConsumers, active]
      | build kind read accepted made =>
          obtain ⟨c, stage, -, -, rfl⟩ := joinBuild_eq_ok made
          simp [kind, buildSegment]
  | gathers started shared made =>
      obtain ⟨c, place, stage, -, -, -, rfl⟩ := materialize_eq_ok made
      have read : (v.node last).active ≠ [] := by
        intro none
        simp [none] at shared
      rw [started]
      simp [read]

/-- A step or a join that few read, and a breaker that nothing reads, do not become sources. -/
theorem Closes.newSource_eq_none {last : NodeId} {segment : Segment}
    (closes : v.Closes last segment) (few : (v.node last).active.length ≤ 1)
    (final
      : (v.node last).kind = .aggregation ∨ (v.node last).kind = .partition →
          (v.node last).active = [])
    : segment.newSource = none := by
  have made := closes.newSource
  split at made
  · exact made
  · next read =>
      rw [not_or] at read
      exfalso
      cases closes with
      | ends ending =>
          cases ending with
          | output kind unread made => exact read.2 unread
          | materialize kind shared made => omega
          | aggregate kind made => exact read.2 (final (.inl kind))
          | partition kind made => exact read.2 (final (.inr kind))
          | build kind waiting accepted made => exact read.1 kind
      | gathers started shared made => omega

/-- A pipeline ends at a join that is started only for several consumers. -/
theorem Closes.shared {last : NodeId} {segment : Segment} (closes : v.Closes last segment)
    {strategy : JoinStrategy} {hashSet : String}
    (started : (v.node last).IsStarted strategy hashSet)
    : 2 ≤ (v.node last).active.length := by
  rw [PhysicalNode.IsStarted] at started
  cases closes with
  | ends ending => cases ending <;> simp_all
  | gathers _ shared _ => exact shared

-----------------------------------------------------------------------------------------------
-- Courses
-----------------------------------------------------------------------------------------------

/-- A pipeline that comes to the first node runs on to the second one. -/
structure RunsOn (v : View) (p c : NodeId) : Prop where
  active : (v.node p).active = [c]
  kind : (v.node p).kind = .pipeline ∨ ∃ strategy hashSet, (v.node p).IsStarted strategy hashSet

/-- The steps of a path, which a pipeline passes through. -/
def steps (v : View) (path : List NodeId) : List NodeId :=
  path.filter fun p => decide ((v.node p).kind = .pipeline)

/-- A pipeline comes along nodes that each run on to the next one, takes the consumers off the
steps among them, and closes at the last node.
Witness: induction on the pipeline.
-/
theorem Pipeline.course {next : StageId} {draft : TupleSetDraft} {prev : NodeId}
    {path : List NodeId} {segment : Segment} (pipeline : v.Pipeline next draft prev path segment)
    : ∃ init last closing,
        path = init ++ [last]
        ∧ (∀ e ∈ links path, v.RunsOn e.1 e.2)
        ∧ v.Closes last closing
        ∧ segment.newSource = closing.newSource
        ∧ segment.changes = closing.changes ++ (v.steps init).reverse.map .consume := by
  induction pipeline with
  | ends ending => exact ⟨[], _, _, rfl, by simp [links], .ends ending, rfl, by simp [steps]⟩
  | pass kind active rest ih =>
      obtain ⟨init, last, closing, whole, runs, closes, source, changes⟩ := ih
      refine ⟨_ :: init, last, closing, by rw [whole]; rfl, ?_, closes, source, ?_⟩
      · intro e member
        rcases List.mem_cons.mp member with rfl | later
        · exact ⟨active, .inl kind⟩
        · exact runs e later
      · simp [Segment.through, changes, steps, kind]
  | cross started crossed active rest ih =>
      obtain ⟨init, last, closing, whole, runs, closes, source, changes⟩ := ih
      refine ⟨_ :: init, last, closing, by rw [whole]; rfl, ?_, closes, source, ?_⟩
      · intro e member
        rcases List.mem_cons.mp member with rfl | later
        · exact ⟨active, .inr ⟨_, _, started⟩⟩
        · exact runs e later
      · rw [Segment.across, changes]
        simp [steps, show (v.node _).kind = _ from started]
  | gather started crossed shared made =>
      exact ⟨[], _, _, rfl, by simp [links], .gathers started shared made, rfl,
        by simp [steps, Segment.across]⟩

/-- What a planned analysis of a source goes along and changes. -/
structure Course (v : View) (source : NodeId) (init : List NodeId) (last : NodeId)
    (segment : Segment) : Prop where
  isSource : ∃ set, (v.node source).sourceSet = some set
  first : ∃ c others, (v.node source).active = c :: others ∧ (init ++ [last]).head? = some c
  runs : ∀ e ∈ links (init ++ [last]), v.RunsOn e.1 e.2
  closes
    : ∃ closing,
        v.Closes last closing
        ∧ segment.newSource = closing.newSource
        ∧ segment.changes
          = closing.changes ++ (v.steps init).reverse.map .consume ++ [.consume source]

/-- A planned analysis is a pipeline along a course. -/
theorem pipeline_of_analyze {source : NodeId} {next reached : StageId} {segment : Segment}
    (planned : v.analyze source next = ⟨reached, .planned segment⟩)
    : ∃ init last set inner,
        v.Course source init last segment
        ∧ (v.node source).sourceSet = some set
        ∧ v.Pipeline next (v.sourceDraft source set) source (init ++ [last]) inner
        ∧ segment = inner.through source := by
  obtain ⟨set, c, others, path, inner, isSource, active, pipeline, rfl, -⟩ :=
    analyze_planned planned
  obtain ⟨init, last, closing, whole, runs, closes, source, changes⟩ := pipeline.course
  refine ⟨init, last, set, inner, ⟨⟨set, isSource⟩, ⟨c, others, active, by rw [← whole]; rfl⟩, ?_,
    closing, closes, source, ?_⟩, isSource, whole ▸ pipeline, rfl⟩
  · rw [← whole]
    exact runs
  · rw [Segment.through, changes]

theorem course_of_analyze {source : NodeId} {next reached : StageId} {segment : Segment}
    (planned : v.analyze source next = ⟨reached, .planned segment⟩)
    : ∃ init last, v.Course source init last segment := by
  obtain ⟨init, last, set, inner, course, -⟩ := pipeline_of_analyze planned
  exact ⟨init, last, course⟩

-----------------------------------------------------------------------------------------------
-- Changes along a course
-----------------------------------------------------------------------------------------------

namespace Course

variable {source last : NodeId} {init : List NodeId} {segment : Segment}

theorem count_consume (course : v.Course source init last segment) (p : NodeId)
    : segment.changes.count (.consume p) = (source :: v.steps init).count p := by
  obtain ⟨closing, closes, -, changes⟩ := course.closes
  have absent : closing.changes.count (.consume p) = 0 := by
    refine List.count_eq_zero.mpr fun member => ?_
    rcases closes.changes with ⟨-, c, strategy, hashSet, -, only⟩ | ⟨-, placed⟩
    · simp [only] at member
    · obtain ⟨name, same⟩ := placed.redirects _ member
      simp at same
  have injective : Function.Injective Change.consume := fun _ _ same => Change.consume.inj same
  rw [changes, List.count_append, List.count_append, absent, List.count_cons,
    List.count_map_of_injective _ _ injective, List.count_reverse]
  simp only [List.count_cons, List.count_nil, beq_iff_eq, Change.consume.injEq]
  omega

/-- Of the joins only the one where the course ends is started, and only if it was not before. -/
theorem starts (course : v.Course source init last segment) {change : Change}
    (member : change ∈ segment.changes) {p : NodeId} (starts : change.Starts p)
    : p = last ∧ (v.node last).kind = .join .notStarted := by
  obtain ⟨closing, closes, -, changes⟩ := course.closes
  rw [changes] at member
  simp only [List.mem_append, List.mem_map, List.mem_singleton] at member
  rcases member with (closed | ⟨_, _, rfl⟩) | rfl
  · rcases closes.changes with ⟨kind, c, strategy, hashSet, -, only⟩ | ⟨-, placed⟩
    · rw [only, List.mem_singleton] at closed
      subst closed
      exact ⟨starts.symm, kind⟩
    · obtain ⟨name, rfl⟩ := placed.redirects _ closed
      exact starts.elim
  · exact starts.elim
  · exact starts.elim

theorem starts_join (course : v.Course source init last segment)
    : ∀ change ∈ segment.changes, ∀ p,
        change.Starts p → (v.topology.arena.node p).kind.reset = .join .notStarted := by
  intro change member p starts
  obtain ⟨rfl, kind⟩ := course.starts member starts
  exact congrArg NodeKind.reset kind

theorem frame (course : v.Course source init last segment)
    : (segment.apply v.topology).arena.Frame v.topology.arena :=
  Segment.frame_apply course.starts_join

/-- The queues along a course lose their front, but for those of the joins that it crosses. -/
theorem active (course : v.Course source init last segment) (p : NodeId)
    : ((segment.apply v.topology).arena.node p).active
        = (v.node p).active.drop ((source :: v.steps init).count p) := by
  rw [Segment.active_apply, course.count_consume]
  rfl

theorem kind (course : v.Course source init last segment) {p : NodeId}
    (other : p ≠ last ∨ (v.node last).kind ≠ .join .notStarted)
    : ((segment.apply v.topology).arena.node p).kind = (v.node p).kind := by
  refine Segment.kind_apply v.topology fun change member starts => ?_
  obtain ⟨same, kind⟩ := course.starts member starts
  exact other.elim (fun differs => differs same) (fun started => started kind)

/-- A join that the course starts is the one where it ends, and is started as the change says. -/
theorem started_by (course : v.Course source init last segment)
    (inside : v.topology.arena.Has last) {p : NodeId} {name : String} {strategy : JoinStrategy}
    {hashSet : String} (member : .startJoin p name strategy hashSet ∈ segment.changes)
    : p = last ∧ ((segment.apply v.topology).arena.node p).IsStarted strategy hashSet := by
  obtain ⟨rfl, kind⟩ := course.starts member rfl
  obtain ⟨closing, closes, -, changes⟩ := course.closes
  rcases closes.changes with ⟨-, c, strategy', hashSet', -, only⟩ | ⟨other, -⟩
  · have same : Change.startJoin p name strategy hashSet
        = .startJoin p c.name strategy' hashSet' := by
      rw [changes, only] at member
      simpa using member
    obtain ⟨-, -, rfl, rfl⟩ := Change.startJoin.inj same
    refine ⟨rfl, ?_⟩
    have later : ∀ change ∈ (v.steps init).reverse.map Change.consume ++ [.consume source],
        ¬ change.Starts p := by
      intro change member
      simp only [List.mem_append, List.mem_map, List.mem_singleton] at member
      rcases member with ⟨_, _, rfl⟩ | rfl <;> exact id
    have first : ((Change.startJoin p c.name strategy hashSet).apply v.topology).arena.node p
        = { v.node p with kind := .join (.started strategy hashSet) } :=
      Arena.node_modify_self _ inside
    have kinds : ((segment.changes.foldl Change.apply v.topology).arena.node p).kind
        = .join (.started strategy hashSet) := by
      rw [changes, only, List.append_assoc, List.foldl_append, kind_foldl _ later,
        List.foldl_cons, List.foldl_nil, first]
    rcases segment.node_apply v.topology p with same | ⟨set, -, changed⟩
    · rw [PhysicalNode.IsStarted, same, kinds]
    · rw [PhysicalNode.IsStarted, changed, kinds]
  · exact absurd kind other

theorem started (course : v.Course source init last segment)
    (inside : v.topology.arena.Has last) (kind : (v.node last).kind = .join .notStarted)
    : ∃ strategy hashSet,
        ((segment.apply v.topology).arena.node last).IsStarted strategy hashSet := by
  obtain ⟨closing, closes, -, changes⟩ := course.closes
  rcases closes.changes with ⟨-, c, strategy, hashSet, -, only⟩ | ⟨other, -⟩
  · have member : .startJoin last c.name strategy hashSet ∈ segment.changes := by
      rw [changes, only]
      simp
    exact ⟨strategy, hashSet, (course.started_by inside member).2⟩
  · exact absurd kind other

/-- Only the node where the course ends can become a source. -/
theorem sourceSet_other (course : v.Course source init last segment) {p : NodeId}
    (other : p ≠ last)
    : ((segment.apply v.topology).arena.node p).sourceSet = (v.node p).sourceSet := by
  refine Segment.sourceSet_apply_of_none v.topology fun set here => ?_
  obtain ⟨closing, closes, source, -⟩ := course.closes
  have made := closes.newSource
  rw [← source, here] at made
  split at made
  · simp at made
  · obtain ⟨_, same⟩ := made
    exact other (Prod.mk.inj (Option.some.inj same)).1

/-- The node where the course ends becomes a source exactly if it has consumers, unless a join is
built there.
-/
theorem newSource (course : v.Course source init last segment)
    : if (v.node last).kind = .join .notStarted ∨ (v.node last).active = [] then
        segment.newSource = none
      else ∃ set, segment.newSource = some (last, set) := by
  obtain ⟨closing, closes, source, -⟩ := course.closes
  rw [source]
  exact closes.newSource

theorem sourceSet_last (course : v.Course source init last segment)
    (inside : v.topology.arena.Has last)
    : ((segment.apply v.topology).arena.node last).sourceSet
        = match segment.newSource with
          | some (_, set) => some set
          | none => (v.node last).sourceSet := by
  have made := course.newSource
  split at made
  · rw [made]
    exact Segment.sourceSet_apply_of_none v.topology fun set here => by simp [made] at here
  · obtain ⟨set, here⟩ := made
    rw [here]
    exact Segment.sourceSet_apply_new course.starts_join here inside

-----------------------------------------------------------------------------------------------
-- The graph after a course
-----------------------------------------------------------------------------------------------

theorem graph_foldl_consume (nodes : List NodeId) (t : Topology)
    : ((nodes.map Change.consume).foldl Change.apply t).graph = t.graph := by
  induction nodes generalizing t with
  | nil => rfl
  | cons node rest ih => rw [List.map_cons, List.foldl_cons, ih]; rfl

/-- Only the closing changes the graph; the rest of a course takes consumers off. -/
theorem closing (course : v.Course source init last segment)
    : ∃ (closing : Segment) (nodes : List NodeId),
        v.Closes last closing
        ∧ segment.newSource = closing.newSource
        ∧ segment.changes = closing.changes ++ nodes.map .consume
        ∧ (segment.apply v.topology).graph
          = (closing.changes.foldl Change.apply v.topology).graph := by
  obtain ⟨closing, closes, source', changes⟩ := course.closes
  have consumes : (v.steps init).reverse.map Change.consume ++ [.consume source]
      = ((v.steps init).reverse ++ [source]).map Change.consume := by simp
  rw [List.append_assoc, consumes] at changes
  refine ⟨closing, _, closes, source', changes, ?_⟩
  rw [Segment.graph_apply, changes, List.foldl_append, graph_foldl_consume]

theorem graph (course : v.Course source init last segment)
    : ∃ closing,
        v.Closes last closing
        ∧ segment.newSource = closing.newSource
        ∧ (segment.apply v.topology).graph
          = (closing.changes.foldl Change.apply v.topology).graph := by
  obtain ⟨closing, nodes, closes, source', -, graph⟩ := course.closing
  exact ⟨closing, closes, source', graph⟩

/-- Where the set that a course makes readable comes from, and what becomes of the graph: the
computation names the set, or is redirected to one of the job's, or one consumer reads a hash table.
-/
inductive Sourced (v : View) (last : NodeId) (set : SetId) (graph : Graph) : Prop
  | kept {c sink} (found : v.computation last = .ok c) (keeps : c.materializeOutput = true)
    (names : c.sinkSet = .ok sink) (key : set.key = sink.key) (same : graph = v.topology.graph)
    (kind : set.kind = .user)
  | redirected {c} (found : v.computation last = .ok c) (unkept : c.materializeOutput = false)
    (key : set.key = setKey v.jobId (v.outputOf last))
    (changed
      : graph
          = v.topology.graph.modifyComputation c.name (·.setOutput v.jobId (v.outputOf last)))
    (kind : set.kind = .intermediate)
  | handed (kind : (v.node last).kind = .aggregation)
    (key : set.key = setKey v.jobId (v.outputOf last ++ "_aggregationResult"))
    (same : graph = v.topology.graph)

theorem sourced (course : v.Course source init last segment) {set : SetId}
    (new : segment.newSource = some (last, set))
    : Sourced v last set (segment.apply v.topology).graph := by
  obtain ⟨closing, closes, source', graph⟩ := course.graph
  rw [source'] at new
  have set_eq : ∀ {other : SetId}, closing.newSource = some (last, other) → other = set := by
    intro other there
    exact (Prod.mk.inj (Option.some.inj (there.symm.trans new))).2
  rcases closes.changes with ⟨join, -⟩ | ⟨-, placed⟩
  · have none := closes.newSource
    rw [if_pos (.inl join), new] at none
    simp at none
  · cases placed with
    | nowhere none changes =>
        rw [new] at none
        simp at none
    | kept found keeps names key there changes kind =>
        obtain rfl := set_eq there
        exact .kept found keeps names key (by rw [graph, changes]; rfl) kind
    | redirected found unkept key there changes kind =>
        obtain rfl := set_eq there
        exact .redirected found unkept key (by rw [graph, changes]; rfl) kind
    | handed kind key there changes =>
        obtain rfl := set_eq there
        exact .handed kind key (by rw [graph, changes]; rfl)

/-- Either nothing changes in the graph, or the computation of the last node does.
Witness: the changes of a closing are at most one redirection or one start of a join.
-/
theorem graph_cases (course : v.Course source init last segment)
    : (segment.apply v.topology).graph = v.topology.graph
      ∨ ∃ c,
          v.computation last = .ok c
          ∧ (c.materializeOutput = false
              ∧ (segment.apply v.topology).graph
                = v.topology.graph.modifyComputation c.name
                    (·.setOutput v.jobId (v.outputOf last))
            ∨ ∃ strategy,
                (segment.apply v.topology).graph
                = v.topology.graph.modifyComputation c.name (·.setStrategy strategy)) := by
  obtain ⟨closing, closes, -, graph⟩ := course.graph
  rcases closes.changes with ⟨-, c, strategy, hashSet, found, only⟩ | ⟨-, placed⟩
  · rw [only] at graph
    exact .inr ⟨c, found, .inr ⟨strategy, graph⟩⟩
  · cases placed with
    | nowhere source changes => exact .inl (by rw [graph, changes]; rfl)
    | kept found keeps names key source changes => exact .inl (by rw [graph, changes]; rfl)
    | redirected found keeps key source changes =>
        rw [changes] at graph
        exact .inr ⟨_, found, .inl ⟨keeps, graph⟩⟩
    | handed kind key source changes => exact .inl (by rw [graph, changes]; rfl)

/-- What keeps its output before a course keeps it afterwards. -/
theorem keeps_output (course : v.Course source init last segment) {name : String}
    {c : Computation} (found : v.topology.graph.computation name = .ok c)
    (keeps : c.materializeOutput = true)
    : ∃ d,
        (segment.apply v.topology).graph.computation name = .ok d
        ∧ d.materializeOutput = true := by
  rcases course.graph_cases with same | ⟨_, -, ⟨-, redirected⟩ | ⟨strategy, built⟩⟩
  · exact ⟨c, same ▸ found, keeps⟩
  · refine ⟨_, redirected ▸ Graph.computation_modify found _ _, ?_⟩
    split
    · rfl
    · exact keeps
  · refine ⟨_, built ▸ Graph.computation_modify found _ _, ?_⟩
    split <;> exact keeps

/-- A course that makes no source changes at most the strategy of the join where it ends. -/
theorem graph_of_no_source (course : v.Course source init last segment)
    (none : segment.newSource = none)
    : (segment.apply v.topology).graph = v.topology.graph
      ∨ (v.node last).kind = .join .notStarted
        ∧ ∃ c strategy,
            v.computation last = .ok c
            ∧ (segment.apply v.topology).graph
              = v.topology.graph.modifyComputation c.name (·.setStrategy strategy) := by
  obtain ⟨closing, closes, same, graph⟩ := course.graph
  rw [none] at same
  rcases closes.changes with ⟨join, c, strategy, hashSet, found, only⟩ | ⟨-, placed⟩
  · rw [only] at graph
    exact .inr ⟨join, c, strategy, found, graph⟩
  · cases placed with
    | nowhere source changes => exact .inl (by rw [graph, changes]; rfl)
    | kept found keeps names key source changes => simp [source] at same
    | redirected found keeps key source changes => simp [source] at same
    | handed kind key source changes => simp [source] at same

/-- A pipeline that ends where nothing reads on leaves the graph as it is. -/
theorem graph_of_unread (course : v.Course source init last segment)
    (kind : (v.node last).kind = .pipeline) (unread : (v.node last).active = [])
    : (segment.apply v.topology).graph = v.topology.graph := by
  have none := course.newSource
  rw [if_pos (.inr unread)] at none
  refine (course.graph_of_no_source none).resolve_right ?_
  rintro ⟨join, -⟩
  simp [kind] at join

/-- Other computations than that of the last node stay as they are. -/
theorem computation_other (course : v.Course source init last segment)
    (named : v.topology.graph.Named) {name : String}
    (other : name ≠ (v.node last).atomic.computation)
    : (segment.apply v.topology).graph.computations.get? name
        = v.topology.graph.computations.get? name := by
  have kept : ∀ (change : Computation → Computation) (c : Computation),
      v.computation last = .ok c →
        (v.topology.graph.modifyComputation c.name change).computations.get? name
          = v.topology.graph.computations.get? name := by
    intro change c found
    rw [named _ _ (Graph.computation_eq_ok.mp found), Graph.modifyComputation, Table.get?_modify,
      if_neg other]
  rcases course.graph_cases with same | ⟨c, found, ⟨-, redirected⟩ | ⟨strategy, built⟩⟩
  · rw [same]
  · rw [redirected, kept _ c found]
  · rw [built, kept _ c found]

theorem named (course : v.Course source init last segment) (named : v.topology.graph.Named)
    : (segment.apply v.topology).graph.Named := by
  rcases course.graph_cases with same | ⟨c, -, ⟨-, redirected⟩ | ⟨strategy, built⟩⟩
  · rw [same]
    exact named
  · rw [redirected]
    exact named.modifyComputation _ fun _ => rfl
  · rw [built]
    exact named.modifyComputation _ fun _ => rfl

/-- No course gives a computation another name. -/
theorem ownName? (course : v.Course source init last segment) (name : String)
    : (segment.apply v.topology).graph.ownName? name = v.topology.graph.ownName? name := by
  rcases course.graph_cases with same | ⟨c, -, ⟨-, redirected⟩ | ⟨strategy, built⟩⟩
  · rw [same]
  · rw [redirected]
    exact Graph.ownName?_modifyComputation _ _ fun _ => rfl
  · rw [built]
    exact Graph.ownName?_modifyComputation _ _ fun _ => rfl

theorem kept (course : v.Course source init last segment) (named : v.topology.graph.Named)
    : (segment.apply v.topology).graph.Kept v.topology.graph := by
  rcases course.graph_cases with same | ⟨c, found, ⟨unkept, redirected⟩ | ⟨strategy, built⟩⟩
  · rw [same]
    exact .refl _
  · rw [redirected]
    refine Graph.kept_modify fun d here => ?_
    have there := Graph.computation_eq_ok.mp found
    rw [← named _ _ there] at there
    rw [Option.some.inj (here.symm.trans there)]
    exact Computation.derived_setOutput unkept _ _
  · rw [built]
    exact Graph.kept_modify fun d _ => Computation.derived_setStrategy d strategy

end Course

end View

end DataflowPlan
