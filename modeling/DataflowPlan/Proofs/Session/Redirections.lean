import DataflowPlan.Proofs.Session.Places

/-! Redirected computations. A computation that is not to keep its output is redirected when an
output of it is first materialized, and goes by that set from then on, for all of its atomics.
-/

namespace DataflowPlan.Session

variable {g : Graph} {first s m : Session} {stats : Statistics} {key name output : String}
  {source : NodeId} {reached : StageId} {segment : Segment} {calls : List (Call × Statistics)}
  {given : Computation}

/-- A call of the run planned a pipeline that sends the output of the computation to the job's set
of that name.
-/
def Redirects (first : Session) (calls : List (Call × Statistics)) (name output : String) : Prop :=
  ∃ before c stats after m key source reached segment,
    calls = before ++ (c, stats) :: after
    ∧ (first.run before).2.Plans stats c m key source reached segment
    ∧ .redirect name first.jobId output ∈ segment.changes

/-- What a computation says of its output after a run: what was submitted, unless a call redirected
it.
-/
inductive DirectedBy (first : Session) (calls : List (Call × Statistics)) (given : Computation)
    : Computation → Prop
  | submitted (never : ∀ output, ¬ first.Redirects calls given.name output)
    : first.DirectedBy calls given given
  | redirected {output : String} (sent : first.Redirects calls given.name output)
    : first.DirectedBy calls given (given.setOutput first.jobId output)

theorem not_redirects_nil (first : Session) (name output : String)
    : ¬ first.Redirects [] name output := by
  rintro ⟨before, c, stats, after, m, key, source, reached, segment, split, -⟩
  simp at split

theorem Redirects.append (sent : first.Redirects calls name output)
    (more : List (Call × Statistics))
    : first.Redirects (calls ++ more) name output := by
  obtain ⟨before, c, stats, after, m, key, source, reached, segment, rfl, planned⟩ := sent
  exact ⟨before, c, stats, after ++ more, m, key, source, reached, segment, by simp, planned⟩

/-- A redirection by a longer run is one before, or the last call makes it. -/
theorem Redirects.of_concat {c : Call}
    (sent : first.Redirects (calls ++ [(c, stats)]) name output)
    : first.Redirects calls name output
      ∨ ∃ m key source reached segment,
          (first.run calls).2.Plans stats c m key source reached segment
          ∧ .redirect name first.jobId output ∈ segment.changes := by
  obtain ⟨before, c', stats', after, m, key, source, reached, segment, split, plans, member⟩ := sent
  rcases List.eq_nil_or_concat after with rfl | ⟨after, last, rfl⟩
  · obtain ⟨rfl, same⟩ := List.append_inj' split rfl
    obtain ⟨rfl, rfl⟩ := Prod.mk.inj (List.cons.inj same).1
    exact .inr ⟨m, key, source, reached, segment, plans, member⟩
  · refine .inl ⟨before, c', stats', after, m, key, source, reached, segment, ?_, plans, member⟩
    rw [List.concat_eq_append, ← List.cons_append, ← List.append_assoc] at split
    exact (List.append_inj' split rfl).1

theorem Waits.graph (waits : s.Waits m)
    : m.topology.graph = s.topology.graph :=
  waits.keeps (P := fun m => m.topology.graph = s.topology.graph) (fun same _ _ => same)
    (fun same => same) rfl

/-- Every computation goes by the set that it is directed to, and keeps its output as it is directed
to.
-/
def Directed (g : Graph) (first : Session) (calls : List (Call × Statistics)) (s : Session)
    : Prop :=
  ∀ name given d,
    g.computation name = .ok given →
      first.DirectedBy calls given d →
        ∃ c, s.topology.graph.computation name = .ok c ∧ c.Like d

theorem Directed.waits (directed : Directed g first calls s) (waits : s.Waits m)
    : Directed g first calls m := by
  intro name given d found directs
  rw [waits.graph]
  exact directed name given d found directs

/-- A call leaves the graph alone, or does to it what the pipeline does that it plans. -/
theorem call_graph (s : Session) (out : Increment) (stats : Statistics) (c : Call)
    : (s.call out stats c).2.topology.graph = s.topology.graph
      ∨ ∃ m key source reached segment,
          s.Plans stats c m key source reached segment
          ∧ m.topology.graph = s.topology.graph
          ∧ (s.call out stats c).2.topology.graph = (segment.apply m.topology).graph := by
  rcases call_cases s out stats c with waits | ⟨m, key, source, reached, segment, plans, next⟩
  · exact .inl waits.graph
  · refine .inr ⟨m, key, source, reached, segment, plans, plans.waits.graph, ?_⟩
    rw [next, topology_commit]

/-- Through a call a computation goes on as it says, if it keeps its output or is not redirected. -/
theorem call_like {c : Call} (out : Increment) (named : s.topology.graph.Named)
    {d : Computation} (found : s.topology.graph.computation name = .ok d)
    (stays
      : d.materializeOutput = true
        ∨ ∀ m key source reached segment,
            s.Plans stats c m key source reached segment →
              ∀ database set, .redirect name database set ∉ segment.changes)
    : ∃ e, (s.call out stats c).2.topology.graph.computation name = .ok e ∧ e.Like d := by
  rcases call_graph s out stats c with
    same | ⟨m, key, source, reached, segment, plans, before, after⟩
  · exact ⟨d, same ▸ found, rfl, rfl, rfl⟩
  · obtain ⟨skip, done⟩ := plans.committed
    obtain ⟨init, last, course⟩ := done.course
    rw [after]
    rw [← before] at found named
    rcases stays with keeps | never
    · obtain ⟨e, there, derived⟩ := (course.kept named).exists_derived found
      obtain ⟨keeps', sets⟩ := derived.kept keeps
      exact ⟨e, there, sets, keeps'.trans keeps.symm, derived.usesCombiner⟩
    · rcases course.unredirected (never m key source reached segment plans) found with
        same | ⟨strategy, joined⟩
      · exact ⟨d, same, rfl, rfl, rfl⟩
      · exact ⟨_, joined, rfl, rfl, rfl⟩

section Run

variable (beginning : first.Beginning g) (named : g.Named)

include beginning named

/-- A call redirects the computation of an atomic whose output it gathers, to the set of that name.
-/
theorem Beginning.redirected {c : Call}
    (plans : (first.run calls).2.Plans stats c m key source reached segment)
    {database set : String} (member : .redirect name database set ∈ segment.changes)
    : ∃ followed last d,
        ReachesNamed g first m followed
        ∧ m.topology.arena.Has last
        ∧ m.topology.graph.computation name = .ok d
        ∧ d.materializeOutput = false
        ∧ (m.view stats).Gathered last
        ∧ (m.node last).atomic.computation = name
        ∧ database = first.jobId
        ∧ (m.node last).atomic.output = set
        ∧ (segment.apply m.topology).graph
          = m.topology.graph.modifyComputation name (·.setOutput first.jobId set) := by
  obtain ⟨followed, reaches, -⟩ := beginning.keyed_of_waits named calls plans.waits
  obtain ⟨skip, done⟩ := plans.committed
  obtain ⟨init, last, course⟩ := done.course
  obtain ⟨d, found, unkept, gathered, rfl, rfl, rfl, graph⟩ := course.redirected member
  have own : d.name = (m.node last).atomic.computation :=
    reaches.named _ _ (Graph.computation_eq_ok.mp found)
  have job : (m.view stats).jobId = first.jobId := reaches.descends.jobId
  rw [job] at graph
  exact ⟨followed, last, d, reaches, reaches.has_last course, own ▸ found, unkept, gathered,
    own.symm, job, rfl, graph⟩

/-- After every run computations say what was submitted or what they are redirected to.
Witness: induction on the calls. A call that redirects a computation does so for the first time, and
any other one leaves what it says of its output.
-/
theorem Beginning.directed (calls : List (Call × Statistics))
    : Directed g first calls (first.run calls).2 := by
  induction calls using List.reverseRecOn with
  | nil =>
      intro name given d found directs
      rw [← beginning.graph] at found
      cases directs with
      | submitted never => exact ⟨given, found, rfl, rfl, rfl⟩
      | redirected sent => exact absurd sent (not_redirects_nil _ _ _)
  | append_singleton calls last ih =>
      obtain ⟨c, stats⟩ := last
      intro name given d found directs
      obtain ⟨followed, reaches, -⟩ := beginning.keyed_of_waits named calls .here
      have own : given.name = name := named _ _ (Graph.computation_eq_ok.mp found)
      rw [run_concat]
      cases directs with
      | submitted never =>
          obtain ⟨e, there, like⟩ := ih name given given found
            (.submitted fun output sent => never output (sent.append _))
          have stays : ∀ m key source reached segment,
              (first.run calls).2.Plans stats c m key source reached segment →
                ∀ database set, .redirect name database set ∉ segment.changes := by
            intro m key source reached segment plans database set member
            obtain ⟨_, _, _, -, -, -, -, -, -, rfl, -⟩ :=
              beginning.redirected named plans member
            exact never set ⟨calls, c, stats, [], m, key, source, reached, segment, rfl, plans,
              own ▸ member⟩
          obtain ⟨f, after, alike⟩ :=
            call_like (first.run calls).1 reaches.named there (.inr stays)
          exact ⟨f, after, alike.trans like⟩
      | @redirected output sent =>
          rcases sent.of_concat with earlier | ⟨m, key, source, reached, segment, plans, member⟩
          · obtain ⟨e, there, like⟩ := ih name given _ found (.redirected earlier)
            obtain ⟨f, after, alike⟩ :=
              call_like (first.run calls).1 reaches.named there (.inl like.keeps)
            exact ⟨f, after, alike.trans like⟩
          · obtain ⟨_, last, d, reaches', -, there, -, -, -, -, -, graph⟩ :=
              beginning.redirected named plans member
            rw [own] at there graph
            have derived : d.Derived given :=
              reaches'.kept.derives (beginning.graph ▸ found) there
            refine ⟨d.setOutput first.jobId output, ?_, rfl, rfl, derived.usesCombiner⟩
            rw [plans.call, topology_commit, graph, Graph.computation_modify there, if_pos rfl]

/-- Only a computation that was not to keep its output is redirected, and for an atomic of it whose
output is materialized for its readers.
-/
theorem Beginning.redirects (sent : first.Redirects calls name output)
    (found : g.computation name = .ok given)
    : given.materializeOutput = false
      ∧ ∃ a ∈ g.atomics,
          a.computation = name ∧ a.output = output ∧ g.isMaterialized a = true := by
  obtain ⟨before, c, stats, after, m, key, source, reached, segment, rfl, plans, member⟩ := sent
  obtain ⟨followed, last, d, reaches, inside, there, unkept, gathered, own, -, made, -⟩ :=
    beginning.redirected named plans member
  have wired := reaches.wired
  have derived : d.Derived given :=
    reaches.kept.derives (beginning.graph ▸ found) there
  have most := reaches.ledger.length_active_le wired inside
  refine ⟨?_, (m.node last).atomic, wired.known last inside, own, made, ?_⟩
  · by_contra keeps
    have kept := (derived.kept (by simpa using keeps)).1
    simp [unkept] at kept
  · rcases gathered with shared | ⟨partition, read⟩
    · have several : 2 ≤ (g.consumersOf (m.node last).atomic.output).length := shared.trans most
      simp [Graph.isMaterialized, Graph.isShared, several]
    · have kind : (m.node last).atomic.kind = .partition :=
        (wired.partition_iff inside).mp partition
      have readers : g.consumersOf (m.node last).atomic.output ≠ [] := by
        intro none
        rw [show (m.topology.arena.node last).atomic = (m.node last).atomic from rfl, none] at most
        exact read (List.length_eq_zero_iff.mp (Nat.le_zero.mp most))
      simp [Graph.isMaterialized, Graph.isUnread, kind, readers]

end Run

end DataflowPlan.Session
