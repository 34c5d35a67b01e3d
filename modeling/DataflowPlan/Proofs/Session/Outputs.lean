import DataflowPlan.Proofs.Analysis.Placements
import DataflowPlan.Proofs.Session.Descent

/-! What ends as an output. A pipeline that arrives at a node without consumers to plan ends in the
set that the node's computation names. That is so where no atomic reads on, and also at a step of
several inputs whose readers all were reached by pipelines that came from its other inputs.
-/

namespace DataflowPlan

namespace PhysicalNode

variable {node : PhysicalNode}

theorem route_eq_output_iff : node.route = .output ↔ node.kind = .pipeline ∧ node.active = [] := by
  unfold route
  cases node.kind with
  | pipeline =>
      match node.active with
      | [] => simp
      | [_] => simp
      | _ :: _ :: _ => simp
  | aggregation | partition | join => simp

end PhysicalNode

/-- An atomic reads the tuple set. -/
def Graph.Reads (g : Graph) (output : String) : Prop :=
  ∃ a ∈ g.atomics, output ∈ a.inputs

namespace Session

/-- The edges that the pipelines planned on the way to a session went along, in order. -/
inductive Travels (first : Session) : List Arena.Edge → Session → Prop
  | start : first.Travels [] first
  | planned {followed s stats skip key source reached segment init last}
    (before : first.Travels followed s)
    (done : s.Committed stats skip key source reached segment)
    (course : (s.view stats).Course source init last segment)
    : first.Travels (followed ++ links (Arena.coursePath source init last))
        (s.commit key source reached segment)
  | refused {followed s} (before : first.Travels followed s) (key : String) (source : NodeId)
    : first.Travels followed (s.penalize key source)
  | prune {followed s} (before : first.Travels followed s) : first.Travels followed s.prune

variable {g : Graph} {first s m : Session} {followed : List Arena.Edge} {stats : Statistics}
  {skip : List String} {key : String} {source prev id last p : NodeId} {init path : List NodeId}
  {next here : StageId} {draft : TupleSetDraft} {reached : StageId} {segment : Segment}

/-- The edges that were travelled are those of the ledger. -/
theorem Travels.reaches (travels : first.Travels followed s) (beginning : first.Beginning g)
    : Reaches g first s followed := by
  induction travels with
  | start => exact beginning.reaches
  | planned before done course ih => exact ih.commit done course
  | refused before key source ih => exact ih.penalize key source
  | prune before ih => exact ih.prune

theorem steady_travels (first : Session)
    : Steady fun _ s => ∃ followed, first.Travels followed s := by
  refine steady_of_commit ?_ ?_ ?_
  · rintro out s stats skip key source reached segment ⟨followed, travels⟩ done
    obtain ⟨init, last, course⟩ := done.course
    exact ⟨_, travels.planned done course⟩
  · rintro out s ⟨followed, travels⟩ key source
    exact ⟨followed, travels.refused key source⟩
  · rintro out s ⟨followed, travels⟩
    exact ⟨followed, travels.prune⟩

/-- The pipeline from the one node comes late to the other, which is a step: pipelines that brought
another of its inputs were there before, and went on to all its consumers.
-/
structure Late (s : Session) (followed : List Arena.Edge) (prev id : NodeId) : Prop where
  step : (s.node id).atomic.kind = .other
  earlier : ∃ q, (q, id) ∈ followed ∧ (s.node q).output ≠ (s.node prev).output
  served : ∀ c ∈ (s.node id).consumers, (id, c) ∈ followed

/-- Data that comes along the path to the node is passed on to a consumer, is kept for the consumers
in a set that pipelines can start from, or is kept in a join's hash table.
-/
inductive Onward (s : Session) (segment : Segment) (path : List NodeId) (id : NodeId) : Prop
  | passed {c} (active : (s.node id).active = [c]) (link : (id, c) ∈ links path)
  | materialized {set} (new : segment.newSource = some (id, set))
  | built {name strategy hashSet} (kind : (s.node id).kind = .join .notStarted)
    (starts : .startJoin id name strategy hashSet ∈ segment.changes)

-----------------------------------------------------------------------------------------------
-- Arrivals
-----------------------------------------------------------------------------------------------

section Arrival

variable (reaches : Reaches g first s followed)

include reaches

/-- A node has consumers exactly if an atomic reads its tuple set. -/
theorem Reaches.reads_iff (inside : s.topology.arena.Has id)
    : g.Reads (s.node id).output ↔ (s.node id).consumers ≠ [] := by
  have attached := (reaches.wired.attached id inside).consumers
  change (s.node id).consumers.map _ = g.consumersOf (s.node id).output at attached
  constructor
  · rintro ⟨a, member, reads⟩ none
    have listed := Graph.mem_consumersOf.mpr ⟨member, reads⟩
    rw [← attached, none] at listed
    simp at listed
  · intro some'
    obtain ⟨c, edge⟩ := List.exists_mem_of_ne_nil _ some'
    have listed : _ ∈ g.consumersOf (s.node id).output := attached ▸ List.mem_map_of_mem edge
    obtain ⟨member, reads⟩ := Graph.mem_consumersOf.mp listed
    exact ⟨_, member, reads⟩

/-- No consumer of a step waits exactly if all were reached. -/
theorem Reaches.active_eq_nil_iff (kind : (s.node id).kind = .pipeline)
    (inside : s.topology.arena.Has id)
    : (s.node id).active = [] ↔ ∀ c ∈ (s.node id).consumers, (id, c) ∈ followed := by
  have step : ¬ s.topology.arena.Solo id := by
    rintro ⟨join, -⟩
    obtain ⟨state, other⟩ := (reaches.wired.join_iff inside).mpr join
    exact absurd (kind.symm.trans other) (by simp)
  have queued := reaches.ledger.queued id step
  change ∀ c, c ∈ (s.node id).active ↔ c ∈ (s.node id).consumers ∧ (id, c) ∉ followed at queued
  rw [List.eq_nil_iff_forall_not_mem]
  refine forall_congr' fun c => ?_
  rw [queued, not_and, not_not]

/-- A node that is no step keeps all its consumers waiting until it is complete. -/
theorem Reaches.active_ne_nil (edge : id ∈ (s.node prev).consumers)
    (fresh : (prev, id) ∉ followed) (kind : (s.node id).kind ≠ .pipeline)
    (read : (s.node id).consumers ≠ [])
    : (s.node id).active ≠ [] := by
  have inside := reaches.wired.has_consumer edge
  obtain ⟨c, onward⟩ := List.exists_mem_of_ne_nil _ read
  have complete : ¬ s.topology.arena.Reached followed id := by
    refine reaches.ledger.not_reached reaches.wired edge fresh fun noJoin => ?_
    have breaker := mt (reaches.wired.pipeline_iff inside).mpr kind
    refine reaches.wired.breaker_single inside ?_
    cases atomic : (s.topology.arena.node id).atomic.kind with
    | scan | other => simp [atomic] at breaker
    | joinSets => exact absurd atomic noJoin
    | aggregate => exact .inl rfl
    | partition => exact .inr rfl
  intro none
  by_cases solo : s.topology.arena.Solo id
  · have same := reaches.ledger.solo id solo
    change (s.node id).active = (s.node id).consumers at same
    exact read (same.symm.trans none)
  · have waits := (reaches.ledger.queued id solo c).mpr
      ⟨onward, fun come => complete (reaches.ledger.reached _ come)⟩
    change c ∈ (s.node id).active at waits
    simp [none] at waits

/-- A pipeline that arrives at a node all of whose readers were reached comes late.
Witness: they were reached through the node, and not along the edge that the pipeline comes.
-/
theorem Reaches.late (edge : id ∈ (s.node prev).consumers) (fresh : (prev, id) ∉ followed)
    (kind : (s.node id).kind = .pipeline) (read : (s.node id).consumers ≠ [])
    (served : ∀ c ∈ (s.node id).consumers, (id, c) ∈ followed)
    : s.Late followed prev id := by
  have inside := reaches.wired.has_consumer edge
  obtain ⟨c, onward⟩ := List.exists_mem_of_ne_nil _ read
  rcases reaches.ledger.reached _ (served c onward) with scan | ⟨⟨q, come⟩, -⟩
  · exact absurd edge (reaches.wired.scan_reads_nothing scan prev)
  · refine ⟨?_, ⟨q, come, fun same => ?_⟩, served⟩
    · rcases (reaches.wired.pipeline_iff inside).mp kind with scan | other
      · exact absurd edge (reaches.wired.scan_reads_nothing scan prev)
      · exact other
    · have twin := reaches.wired.sound.id_eq (Arena.has_of_edge (reaches.ledger.edges _ come))
        (Arena.has_of_edge edge) same
      exact fresh (twin ▸ come)

/-- A pipeline that arrives at a node ends there as an output exactly if the node is a step whose
tuple set no atomic reads, or it comes late.
-/
theorem Reaches.route_eq_output_iff (edge : id ∈ (s.node prev).consumers)
    (fresh : (prev, id) ∉ followed)
    : (s.node id).route = .output
      ↔ (s.node id).kind = .pipeline ∧ ¬ g.Reads (s.node id).output
        ∨ s.Late followed prev id := by
  have inside := reaches.wired.has_consumer edge
  rw [PhysicalNode.route_eq_output_iff, reaches.reads_iff inside, not_not]
  constructor
  · rintro ⟨kind, none⟩
    have served := (reaches.active_eq_nil_iff kind inside).mp none
    by_cases unread : (s.node id).consumers = []
    · exact .inl ⟨kind, unread⟩
    · exact .inr (reaches.late edge fresh kind unread served)
  · rintro (⟨kind, unread⟩ | late)
    · exact ⟨kind, (reaches.active_eq_nil_iff kind inside).mpr (by simp [unread])⟩
    · have kind : (s.node id).kind = .pipeline :=
        (reaches.wired.pipeline_iff inside).mpr (.inr late.step)
      exact ⟨kind, (reaches.active_eq_nil_iff kind inside).mpr late.served⟩

/-- Where every step reads one tuple set, no pipeline comes late. -/
theorem Reaches.not_late (single : ∀ a ∈ g.atomics, a.kind = .other → ∃ input, a.ReadsOnly input)
    (edge : id ∈ (s.node prev).consumers)
    : ¬ s.Late followed prev id := by
  intro late
  obtain ⟨q, come, differs⟩ := late.earlier
  have inside := reaches.wired.has_consumer edge
  obtain ⟨input, only⟩ := single _ (reaches.wired.known id inside) late.step
  have here := (only _).mp (reaches.wired.read_of_edge edge)
  have there := (only _).mp (reaches.wired.read_of_edge (reaches.ledger.edges _ come))
  exact differs (there.trans here.symm)

/-- What a planned pipeline brings to a node that is read goes on from there, unless it comes late.
Witness: from a node before the last one it is passed on; at the last one the course tells what is
left, and nothing is only if no consumer waits.
-/
theorem Reaches.onward (course : (s.view stats).Course source init last segment)
    {e : Arena.Edge} (link : e ∈ links (Arena.coursePath source init last))
    (read : g.Reads (s.node e.2).output)
    : s.Onward segment (Arena.coursePath source init last) e.2 ∨ s.Late followed e.1 e.2 := by
  obtain ⟨prev, id⟩ := e
  have ledger : (s.view stats).topology.arena.Ledger followed := reaches.ledger
  have edge : id ∈ (s.node prev).consumers := Arena.course_edge ledger course link
  have fresh := Arena.course_fresh reaches.wired ledger course link
  have read := (reaches.reads_iff (reaches.wired.has_consumer edge)).mp read
  have member : id ∈ init ++ [last] := right_of_link link
  rcases List.mem_append.mp member with inner | isLast
  · obtain ⟨c, onward⟩ := exists_link_from last (List.mem_cons_of_mem source inner)
    refine .inl (.passed (c := c) ?_ onward)
    rcases Arena.course_queued course onward with ⟨same, -⟩ | ⟨-, runs⟩
    · have unique := Arena.coursePath_nodup reaches.wired ledger course
      exact absurd (same ▸ member) (List.nodup_cons.mp unique).1
    · exact runs.active
  · obtain rfl := List.mem_singleton.mp isLast
    have made := course.newSource
    split at made
    · next closed =>
        rcases closed with join | none
        · obtain ⟨closing, closes, -, changes⟩ := course.closes
          rcases closes.changes with ⟨-, c, strategy, hashSet, -, only⟩ | ⟨other, -⟩
          · exact .inl (.built join (by simp [changes, only]; exact ⟨rfl, rfl, rfl⟩))
          · exact absurd join other
        · refine .inr ?_
          have none : (s.node id).active = [] := none
          by_cases kind : (s.node id).kind = .pipeline
          · exact reaches.late edge fresh kind read
              ((reaches.active_eq_nil_iff kind (reaches.wired.has_consumer edge)).mp none)
          · exact absurd none (reaches.active_ne_nil edge fresh kind read)
    · obtain ⟨set, new⟩ := made
      exact .inl (.materialized new)

end Arrival

-----------------------------------------------------------------------------------------------
-- Runs
-----------------------------------------------------------------------------------------------

/-- What ends as an output, after pipelines that went along the edges: wherever a pipeline arrives,
the output of a step that no atomic reads, or what comes late. All other data that is read goes on.
-/
structure OutputTerms (g : Graph) (s : Session) (followed : List Arena.Edge) : Prop where
  ends
    : ∀ stats source next draft prev id,
        (s.view stats).Comes source s.nextStage next draft prev id →
          ((s.node id).route = .output
            ↔ (s.node id).kind = .pipeline ∧ ¬ g.Reads (s.node id).output
              ∨ s.Late followed prev id)
  onward
    : ∀ stats source reached segment,
        (s.view stats).analyze source s.nextStage = ⟨reached, .planned segment⟩ →
          ∃ init last,
            (s.view stats).Course source init last segment
            ∧ ∀ e ∈ links (Arena.coursePath source init last),
                g.Reads (s.node e.2).output →
                  s.Onward segment (Arena.coursePath source init last) e.2
                  ∨ s.Late followed e.1 e.2
  single
    : (∀ a ∈ g.atomics, a.kind = .other → ∃ input, a.ReadsOnly input) →
        ∀ stats source next draft prev id,
          (s.view stats).Comes source s.nextStage next draft prev id → ¬ s.Late followed prev id

theorem Reaches.outputTerms (reaches : Reaches g first s followed)
    : OutputTerms g s followed := by
  refine ⟨?_, ?_, ?_⟩
  · intro stats source next draft prev id comes
    obtain ⟨edge, fresh⟩ := comes.fresh reaches.wired reaches.ledger
    exact reaches.route_eq_output_iff edge fresh
  · intro stats source reached segment planned
    obtain ⟨init, last, course⟩ := View.course_of_analyze planned
    exact ⟨init, last, course, fun e link read => reaches.onward course link read⟩
  · intro single stats source next draft prev id comes
    exact reaches.not_late single (comes.fresh reaches.wired reaches.ledger).1

/-- In every run a pipeline ends as an output only where no atomic reads on, or where it comes late:
at a step of several inputs, all of whose readers were reached from its other inputs.
-/
theorem outputTerms_of_run {jobId : String} {config : PlannerConfig}
    (started : Session.start jobId g config = .ok first)
    (calls : List (Call × Statistics)) (waits : (first.run calls).2.Waits m)
    : ∃ followed, first.Travels followed m ∧ OutputTerms g m followed := by
  obtain ⟨beginning, -⟩ := beginning_of_start started
  have steady := steady_travels first
  have ran := steady.run ⟨[], .start⟩ calls
  obtain ⟨followed, travels⟩ := @Steady.waits _ steady _ _ .empty ran waits
  exact ⟨followed, travels, (travels.reaches beginning).outputTerms⟩

/-- In all runs pipelines end as outputs only at what no atomic reads. -/
def OutputsUnread (g : Graph) (first : Session) : Prop :=
  ∀ calls m,
    (first.run calls).2.Waits m →
      ∀ stats source next draft prev id,
        (m.view stats).Comes source m.nextStage next draft prev id →
          (m.node id).route = .output → ¬ g.Reads (m.node id).output

/-- Two sets are merged by a step that keeps its output, and the merged set is written. -/
def mergedSides : Graph :=
  .ofLists
    [.scan "scan_a" "db" "a", .scan "scan_b" "db" "b",
      (Computation.ofKind "merge" .selection).setOutput "db" "merged",
      (Computation.ofKind "write" .write).setOutput "db" "out"]
    [.scan "a" "scan_a", .scan "b" "scan_b", ⟨"both", ["a", "b"], "merge", .other⟩,
      .apply "out" "both" "write"]

/-- The first side is written. When that is planned the other side waits, and ends in the set of the
step, whose reader has none of it.
-/
theorem run_mergedSides
    : ∃ first,
        Session.start "job" mergedSides .standard = .ok first
        ∧ (first.run (List.replicate 2 (.planIncrement, .empty))).1.stages.map Stage.sink?
          = [some (.user "db" "out"), some (.user "db" "merged")]
        ∧ ((first.run [(.planIncrement, .empty)]).2.node ⟨3⟩).sourceSet = some (.user "db" "b")
        ∧ ((first.run [(.planIncrement, .empty)]).2.node ⟨3⟩).active = [⟨1⟩]
        ∧ ((first.run [(.planIncrement, .empty)]).2.node ⟨1⟩).route = .output
        ∧ mergedSides.Reads ((first.run [(.planIncrement, .empty)]).2.node ⟨1⟩).output := by
  have evaluated : (Session.start "job" mergedSides .standard).toOption.any (fun first =>
      ((first.run (List.replicate 2 (.planIncrement, .empty))).1.stages.map Stage.sink?
          == [some (.user "db" "out"), some (.user "db" "merged")])
        && (((first.run [(.planIncrement, .empty)]).2.node ⟨3⟩).sourceSet
          == some (.user "db" "b"))
        && (((first.run [(.planIncrement, .empty)]).2.node ⟨3⟩).active == [⟨1⟩])
        && (((first.run [(.planIncrement, .empty)]).2.node ⟨1⟩).route == .output)
        && (((first.run [(.planIncrement, .empty)]).2.node ⟨1⟩).output == "both")) = true := by
    decide +kernel
  obtain ⟨first, started, evaluated⟩ := Except.toOption_any_iff.mp evaluated
  simp only [Bool.and_eq_true, beq_iff_eq] at evaluated
  obtain ⟨⟨⟨⟨sinks, isSource⟩, active⟩, route⟩, output⟩ := evaluated
  refine ⟨first, started, sinks, isSource, active, route, ?_⟩
  rw [output]
  exact ⟨.apply "out" "both" "write", by decide, by decide⟩

/-- The second side ends as an output at a step that is read. -/
theorem mergedSides_endsAtRead
    : ∃ first,
        Session.start "job" mergedSides .standard = .ok first
        ∧ (first.run (List.replicate 2 (.planIncrement, .empty))).1.stages.map Stage.sink?
          = [some (.user "db" "out"), some (.user "db" "merged")]
        ∧ ¬ OutputsUnread mergedSides first := by
  obtain ⟨first, started, sinks, isSource, active, route, read⟩ := run_mergedSides
  refine ⟨first, started, sinks, fun claimed => ?_⟩
  exact claimed [(.planIncrement, .empty)] _ .here .empty ⟨3⟩ _ _ ⟨3⟩ ⟨1⟩ (.start isSource active)
    route read

/-- It comes late. -/
theorem mergedSides_outputTerms
    : ∃ first followed,
        Session.start "job" mergedSides .standard = .ok first
        ∧ first.Travels followed (first.run [(.planIncrement, .empty)]).2
        ∧ OutputTerms mergedSides (first.run [(.planIncrement, .empty)]).2 followed
        ∧ (first.run [(.planIncrement, .empty)]).2.Late followed ⟨3⟩ ⟨1⟩ := by
  obtain ⟨first, started, -, isSource, active, route, read⟩ := run_mergedSides
  obtain ⟨followed, travels, terms⟩ := outputTerms_of_run started [(.planIncrement, .empty)] .here
  refine ⟨first, followed, started, travels, terms, ?_⟩
  have arrives := terms.ends .empty ⟨3⟩ _ _ ⟨3⟩ ⟨1⟩ (.start isSource active)
  exact (arrives.mp route).resolve_left fun unread => unread.2 read

end Session

end DataflowPlan
