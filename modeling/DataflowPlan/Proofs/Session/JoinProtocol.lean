import DataflowPlan.Proofs.Analysis.Deposits
import DataflowPlan.Proofs.Session.CompletePlan

/-! The two visits of a join. The side that comes first builds the hash table, and the other one
probes it, whatever is planned in between and with any statistics at each call.
-/

namespace DataflowPlan

-----------------------------------------------------------------------------------------------
-- Histories
-----------------------------------------------------------------------------------------------

/-- How a join shows in the stages so far, by its state and the visits to it: not at all, by the
stages that build its hash table, or by those and the ones behind them that probe it.
-/
inductive JoinHistory (jobId output : String) : JoinState → Nat → List Stage → Prop
  | untouched {stages} (aside : Aside jobId output stages)
    : JoinHistory jobId output .notStarted 0 stages
  | built {strategy hashSet before feed build after}
    (builds : Stage.BuildsFrom jobId output strategy hashSet feed build)
    (earlier : Aside jobId output (before ++ [.tupleSet feed]))
    (later : Aside jobId output after)
    : JoinHistory jobId output (.started strategy hashSet) 1
        (before ++ .tupleSet feed :: build :: after)
  | probed {strategy hashSet before feed build between split probe after}
    (builds : Stage.BuildsFrom jobId output strategy hashSet feed build)
    (arrives : Stage.Arrives jobId output strategy split probe)
    (probes : Stage.Probes output hashSet probe)
    (earlier : Aside jobId output (before ++ [.tupleSet feed]))
    (amid : Aside jobId output (between ++ split))
    (later : Aside jobId output after)
    : JoinHistory jobId output (.started strategy hashSet) 2
        (before ++ .tupleSet feed :: build :: (between ++ split ++ .tupleSet probe :: after))

namespace JoinHistory

variable {jobId output hashSet : String} {state : JoinState} {strategy : JoinStrategy}
  {visits : Nat} {stages more : List Stage}

/-- Stages that have nothing to do with the join do not change its history. -/
theorem append (history : JoinHistory jobId output state visits stages)
    (aside : Aside jobId output more)
    : JoinHistory jobId output state visits (stages ++ more) := by
  cases history with
  | untouched before => exact .untouched (before.append aside)
  | built builds earlier later =>
      rw [List.append_assoc]
      exact .built builds earlier (later.append aside)
  | probed builds arrives probes earlier amid later =>
      simp only [List.append_assoc, List.cons_append]
      rw [← List.append_assoc]
      exact .probed builds arrives probes earlier amid (later.append aside)

/-- The first visit builds the hash table. -/
theorem build (history : JoinHistory jobId output .notStarted 0 stages)
    (built : Built jobId output strategy hashSet more)
    : JoinHistory jobId output (.started strategy hashSet) 1 (stages ++ more) := by
  obtain ⟨front, feed, build, rfl, builds, aside⟩ := built
  cases history with
  | untouched before =>
      rw [← List.append_assoc]
      refine .built builds ?_ (aside_nil _ _)
      rw [List.append_assoc]
      exact before.append aside

/-- The second visit probes it. -/
theorem probe (history : JoinHistory jobId output (.started strategy hashSet) 1 stages)
    (probed : Probed jobId output strategy hashSet more)
    : JoinHistory jobId output (.started strategy hashSet) 2 (stages ++ more) := by
  obtain ⟨front, split, probe, rest, rfl, arrives, probes, frontAside, restAside⟩ := probed
  cases history with
  | @built _ _ before feed build after builds earlier later =>
      have whole : before ++ .tupleSet feed :: build :: after
            ++ (front ++ split ++ .tupleSet probe :: rest)
          = before ++ .tupleSet feed :: build :: (after ++ front ++ split
            ++ .tupleSet probe :: rest) := by simp
      rw [whole]
      refine .probed builds arrives probes earlier ?_ restAside
      rw [List.append_assoc]
      exact later.append frontAside

theorem visits_of_notStarted (history : JoinHistory jobId output .notStarted visits stages)
    : visits = 0 := by
  cases history
  rfl

theorem visits_of_started
    (history : JoinHistory jobId output (.started strategy hashSet) visits stages)
    (fewer : visits < 2)
    : visits = 1 := by
  cases history with
  | built => rfl
  | probed => omega

end JoinHistory

/-- Something else of the graph goes by the name of the set that the probing side of a join is
split into: the set of a computation, or what an atomic makes.
-/
inductive Graph.TakesProbeSet (g : Graph) (jobId output : String) : Prop
  | named {name c set} (found : g.computation name = .ok c) (names : c.set? = some set)
    (key : set.key = probeKey jobId output)
  | made {b} (member : b ∈ g.atomics) (named : b.output = output ++ "_probeRepartitionData")

-----------------------------------------------------------------------------------------------
-- One pipeline
-----------------------------------------------------------------------------------------------

/-- Of the sets that go by the names of nodes, only that of a join split by key has the key of its
probing side's set, unless the node's own name is such a one.
-/
theorem View.Makes.of_probeKey {v : View} {q : NodeId} {suffix output : String}
    (makes : v.Makes q suffix)
    (same : setKey v.jobId (v.outputOf q ++ suffix) = probeKey v.jobId output)
    : (∃ hashSet, (v.node q).IsStarted .hashPartitioned hashSet ∧ v.outputOf q = output)
      ∨ v.outputOf q = output ++ "_probeRepartitionData" := by
  have names := setKey_inj same
  have alike := suffix_of_append_eq names
  cases makes with
  | gathered found unkept read => exact .inr (by simpa using names)
  | shuffled kind => exact absurd alike (by decide)
  | combined kind found uses => exact absurd alike (by decide)
  | @built strategy kind => cases strategy <;> exact absurd alike (by decide)
  | split started => exact .inl ⟨_, started, (String.append_left_inj _).mp names⟩

namespace Session

/-- What the stages so far tell of each join, and the sets that computations name by now. -/
structure JoinsKept (g : Graph) (s : Session) (followed : List Arena.Edge) (stages : List Stage)
    : Prop where
  histories
    : ∀ p,
        s.topology.arena.Has p →
          ∀ state,
            (s.node p).kind = .join state →
              JoinHistory s.jobId (s.node p).output state (Arena.incoming followed p) stages
  named
    : ∀ name c set,
        s.topology.graph.computation name = .ok c →
          c.set? = some set →
            (∃ d, g.computation name = .ok d ∧ d.set? = some set)
            ∨ ∃ b ∈ g.atomics, set = .user s.jobId b.output
  splits
    : ∀ stage ∈ stages,
        ∀ set,
          stage.sink? = some set →
            ∀ p,
              s.topology.arena.Has p →
                set.key = probeKey s.jobId (s.node p).output →
                  (∃ hashSet, (s.node p).IsStarted .hashPartitioned hashSet)
                  ∨ g.TakesProbeSet s.jobId (s.node p).output
  builds
    : ∀ stage ∈ stages,
        stage.isBuild = true →
          ∃ a ∈ g.atomics, a.kind = .joinSets ∧ stage.BuildsFor s.jobId a.output

variable {g : Graph} {first s : Session} {followed : List Arena.Edge} {stats : Statistics}
  {skip : List String} {key : String} {source last p : NodeId} {init : List NodeId}
  {reached next : StageId} {segment inner : Segment} {set : SetId} {stages : List Stage}

theorem Beginning.joinsKept (beginning : s.Beginning g)
    : JoinsKept g s [] [] := by
  refine ⟨?_, ?_, by simp, by simp⟩
  · intro p inside state kind
    cases state with
    | notStarted => exact .untouched (aside_nil _ _)
    | started strategy hashSet => exact absurd kind (beginning.not_started p strategy hashSet)
  · intro name c set found names
    rw [beginning.graph] at found
    exact .inl ⟨c, found, names⟩

/-- A join that is started stays so. -/
theorem started_commit (course : (s.view stats).Course source init last segment)
    {strategy : JoinStrategy} {hashSet : String} (started : (s.node p).IsStarted strategy hashSet)
    : ((s.commit key source reached segment).node p).IsStarted strategy hashSet := by
  have other : p ≠ last ∨ ((s.view stats).node last).kind ≠ .join .notStarted := by
    by_cases same : p = last
    · subst same
      refine .inr fun kind => ?_
      have both := kind.symm.trans started
      simp at both
    · exact .inl same
  rw [PhysicalNode.IsStarted, node_commit]
  exact (course.kind other).trans started

section Planned

variable (reaches : Reaches g first s followed) (kept : JoinsKept g s followed stages)
  (course : (s.view stats).Course source init last segment)
  (pipeline
    : (s.view stats).Pipeline next ((s.view stats).sourceDraft source set) source
        (init ++ [last]) inner)
  (whole : segment = inner.through source)

include reaches kept course pipeline whole

omit kept pipeline whole in
/-- A join that a pipeline comes to was not come to twice before, as it reads two tuple sets. -/
theorem Reaches.incoming_lt_two (member : p ∈ init ++ [last])
    (join : (s.node p).atomic.kind = .joinSets)
    : Arena.incoming followed p < 2 := by
  have wired : Arena.Wired g (s.view stats).topology.arena := reaches.wired
  have ledger : (s.view stats).topology.arena.Ledger followed := reaches.ledger
  obtain ⟨q, edge, unfollowed⟩ := exists_fresh_edge wired ledger course member
  have inside := has_of_path wired ledger course member
  have fit := wired.valid.fit _ (wired.known p inside)
  have two : ((s.view stats).topology.arena.node p).atomic.inputs.length = 2 := by
    simpa [Atomic.hasFitInputs, show ((s.view stats).topology.arena.node p).atomic.kind = _
      from join] using fit
  rw [← two]
  exact Arena.incoming_lt wired ledger p (fun input member => member) edge unfollowed

/-- A visit to a join goes on with its history: the first one starts it, the second one probes. -/
theorem JoinsKept.history_visited (member : p ∈ init ++ [last]) {state : JoinState}
    (kind : ((s.commit key source reached segment).node p).kind = .join state)
    : JoinHistory s.jobId (s.node p).output state (Arena.incoming followed p + 1)
        (stages ++ inner.stages) := by
  have wired : Arena.Wired g (s.view stats).topology.arena := reaches.wired
  have ledger : (s.view stats).topology.arena.Ledger followed := reaches.ledger
  have inside := has_of_path wired ledger course member
  have outputs := path_outputs_nodup wired ledger course
  have join : (s.node p).atomic.kind = .joinSets := by
    have wiredAfter := (reaches.wired.of_frame course.frame).join_iff
      (course.frame.has_iff.mpr inside)
    rw [course.frame.atomic] at wiredAfter
    exact wiredAfter.mp ⟨state, by rwa [node_commit] at kind⟩
  obtain ⟨before, was⟩ := (wired.join_iff inside).mpr join
  have history := kept.histories p inside before was
  cases before with
  | notStarted =>
      obtain ⟨name, strategy, hashSet, starts, built⟩ :=
        pipeline.built member was outputs rfl
      have listed : .startJoin p name strategy hashSet ∈ segment.changes := by
        rw [whole]
        exact List.mem_append_left _ starts
      obtain ⟨-, isStarted⟩ :=
        course.started_by (has_of_path wired ledger course (by simp)) listed
      obtain rfl : state = .started strategy hashSet := by
        rw [node_commit] at kind
        exact NodeKind.join.inj (kind.symm.trans isStarted)
      have none := history.visits_of_notStarted
      rw [none] at history ⊢
      exact history.build built
  | started strategy hashSet =>
      obtain rfl : state = .started strategy hashSet :=
        NodeKind.join.inj (kind.symm.trans (started_commit course was))
      have one := history.visits_of_started (reaches.incoming_lt_two course member join)
      rw [one] at history ⊢
      exact history.probe (pipeline.probed member was outputs rfl)

omit whole in
/-- A pipeline does not go on with the history of a join that it does not come to. -/
theorem JoinsKept.history_aside (inside : s.topology.arena.Has p) (off : p ∉ init ++ [last])
    {state : JoinState}
    (kind : ((s.commit key source reached segment).node p).kind = .join state)
    : JoinHistory s.jobId (s.node p).output state (Arena.incoming followed p)
        (stages ++ inner.stages) := by
  have wired : Arena.Wired g (s.view stats).topology.arena := reaches.wired
  have ledger : (s.view stats).topology.arena.Ledger followed := reaches.ledger
  have elsewhere : ∀ q ∈ init ++ [last], (s.view stats).outputOf q ≠ (s.node p).output := by
    intro q onPath same
    obtain rfl := wired.sound.id_eq (has_of_path wired ledger course onPath) inside same
    exact off onPath
  have other : p ≠ last := by
    rintro rfl
    exact off (by simp)
  have was : (s.node p).kind = .join state := by
    rw [node_commit] at kind
    exact (course.kind (.inl other)).symm.trans kind
  exact (kept.histories p inside state was).append (pipeline.aside elsewhere rfl)

theorem JoinsKept.histories_after (inside : s.topology.arena.Has p) {state : JoinState}
    (kind : ((s.commit key source reached segment).node p).kind = .join state)
    : JoinHistory s.jobId (s.node p).output state
        (Arena.incoming (followed ++ links (Arena.coursePath source init last)) p)
        (stages ++ segment.stages) := by
  have made : segment.stages = inner.stages := by rw [whole]; rfl
  rw [incoming_after reaches.wired reaches.ledger course, made]
  by_cases member : p ∈ init ++ [last]
  · rw [if_pos member]
    exact kept.history_visited reaches course pipeline whole member kind
  · rw [if_neg member]
    exact kept.history_aside reaches course pipeline inside member kind

omit pipeline whole in
/-- A set that a computation names after a pipeline is one that it was given, or the job's set of an
atomic's output.
-/
theorem JoinsKept.named_after {name : String} {c : Computation} {own : SetId}
    (found : (segment.apply s.topology).graph.computation name = .ok c)
    (names : c.set? = some own)
    : (∃ d, g.computation name = .ok d ∧ d.set? = some own)
      ∨ ∃ b ∈ g.atomics, own = .user s.jobId b.output := by
  have inside := reaches.wired.known last (reaches.has_last course)
  rcases course.graph_cases with
    unchanged | ⟨d, -, ⟨-, redirected⟩ | ⟨strategy, built⟩⟩
  · rw [show (segment.apply s.topology).graph = _ from unchanged] at found
    exact kept.named name c own found names
  · rw [show (segment.apply s.topology).graph = _ from redirected] at found
    obtain ⟨e, there, rfl⟩ := Graph.of_computation_modify found
    split at names
    · exact .inr ⟨_, inside, (Option.some.inj names).symm⟩
    · exact kept.named name e own there names
  · rw [show (segment.apply s.topology).graph = _ from built] at found
    obtain ⟨e, there, rfl⟩ := Graph.of_computation_modify found
    split at names
    · exact kept.named name e own there names
    · exact kept.named name e own there names

omit whole in
/-- A stage of the pipeline that writes the set of a join's probing side splits it by key, unless
something else of the graph goes by that name.
-/
theorem JoinsKept.splits_of_planned {stage : Stage} (member : stage ∈ inner.stages) {sink : SetId}
    (written : stage.sink? = some sink) (inside : s.topology.arena.Has p)
    (same : sink.key = probeKey s.jobId (s.node p).output)
    : (∃ hashSet, (s.node p).IsStarted .hashPartitioned hashSet)
      ∨ g.TakesProbeSet s.jobId (s.node p).output := by
  have wired : Arena.Wired g (s.view stats).topology.arena := reaches.wired
  have ledger : (s.view stats).topology.arena.Ledger followed := reaches.ledger
  obtain ⟨q, onPath, deposit⟩ := pipeline.deposits.sinks stage member sink written
  have there := has_of_path wired ledger course onPath
  cases deposit with
  | made made declared =>
      obtain ⟨-, suffix, makes, named⟩ := made
      rcases makes.of_probeKey (named.symm.trans same) with
        ⟨hashSet, started, output⟩ | output
      · obtain rfl := wired.sound.id_eq there inside output
        exact .inl ⟨hashSet, started⟩
      · exact .inr (.made (wired.known q there) output)
  | @named c own found names _ key =>
      rcases kept.named _ c own found names with ⟨d, given, takes⟩ | ⟨b, known, rfl⟩
      · exact .inr (.named given takes (key.symm.trans same))
      · exact .inr (.made known (setKey_inj (key.symm.trans same)))
  | handed kind found unkept active table new =>
      rw [table] at same
      exact absurd (suffix_of_append_eq (setKey_inj same)) (by decide)

/-- What is known of joins holds after a planned pipeline as well. -/
theorem JoinsKept.commit
    : JoinsKept g (s.commit key source reached segment)
        (followed ++ links (Arena.coursePath source init last)) (stages ++ segment.stages) := by
  have made : segment.stages = inner.stages := by rw [whole]; rfl
  have frame := course.frame
  have has : ∀ q, (s.commit key source reached segment).topology.arena.Has q →
      s.topology.arena.Has q := by
    intro q inside
    rw [topology_commit] at inside
    exact frame.has_iff.mp inside
  have output : ∀ q, ((s.commit key source reached segment).node q).output = (s.node q).output := by
    intro q
    rw [node_commit]
    exact frame.output q
  obtain ⟨jobId, -⟩ := settings_commit s key source reached segment
  refine ⟨?_, ?_, ?_, ?_⟩
  · intro q inside state kind
    rw [jobId, output]
    exact kept.histories_after reaches course pipeline whole (has q inside) kind
  · intro name c own found names
    rw [topology_commit] at found
    rw [jobId]
    exact kept.named_after reaches course found names
  · intro stage member sink written q inside same
    rw [jobId, output] at same ⊢
    have before : (∃ hashSet, (s.node q).IsStarted .hashPartitioned hashSet)
        ∨ g.TakesProbeSet s.jobId (s.node q).output := by
      rcases List.mem_append.mp member with old | new
      · exact kept.splits stage old sink written q (has q inside) same
      · exact kept.splits_of_planned reaches course pipeline (made ▸ new) written (has q inside)
          same
    refine before.imp_left fun ⟨hashSet, started⟩ => ⟨hashSet, ?_⟩
    exact started_commit course started
  · intro stage member builds
    rw [jobId]
    rcases List.mem_append.mp member with old | new
    · exact kept.builds stage old builds
    · obtain ⟨q, onPath, kind, strategy, names⟩ := pipeline.build_owned (made ▸ new) builds
      have there := has_of_path (v := s.view stats) reaches.wired reaches.ledger course onPath
      exact ⟨_, reaches.wired.known q there, (reaches.wired.join_iff there).mp ⟨_, kind⟩, strategy,
        names⟩

end Planned

theorem JoinsKept.penalize (kept : JoinsKept g s followed stages) (key : String)
    (source : NodeId)
    : JoinsKept g (s.penalize key source) followed stages := by
  have frame := Arena.frame_rotate s.topology.arena source
  have kind : ∀ q, ((s.penalize key source).node q).kind = (s.node q).kind :=
    Arena.kind_rotate s.topology.arena source
  have output : ∀ q, ((s.penalize key source).node q).output = (s.node q).output := frame.output
  refine ⟨?_, kept.named, ?_, kept.builds⟩
  · intro q inside state same
    rw [output]
    exact kept.histories q (frame.has_iff.mp inside) state ((kind q).symm.trans same)
  · intro stage member sink written q inside same
    rw [output] at same ⊢
    simp only [PhysicalNode.IsStarted, kind]
    exact kept.splits stage member sink written q (frame.has_iff.mp inside) same

/-- In every session that a run leads to, joins are as far as the stages so far tell. -/
theorem steady_joinsKept (g : Graph) (first : Session)
    : Steady fun out s =>
        ∃ followed, Reaches g first s followed ∧ JoinsKept g s followed out.stages :=
  steady_of_kept (P := fun followed out s => JoinsKept g s followed out.stages)
    (fun reaches kept _ course pipeline whole => kept.commit reaches course pipeline whole)
    (fun kept key source => kept.penalize key source)
    (fun kept => ⟨kept.histories, kept.named, kept.splits, kept.builds⟩)

theorem steady_started (p : NodeId) (strategy : JoinStrategy) (hashSet : String)
    : Steady fun _ s => (s.node p).IsStarted strategy hashSet := by
  refine steady_of_commit ?_ ?_ fun started => started
  · intro out s stats skip key source reached segment started done
    obtain ⟨init, last, course⟩ := done.course
    exact started_commit course started
  · intro out s started key source
    exact (Arena.kind_rotate s.topology.arena source p).trans started

-----------------------------------------------------------------------------------------------
-- Runs
-----------------------------------------------------------------------------------------------

/-- What a run tells of a join: its state fits the stages that build and probe its hash table, and
if the building side is broadcast, no stage splits the probing side.
-/
structure TwoVisits (g : Graph) (s : Session) (output : String) (stages : List Stage) : Prop where
  history
    : ∃ state visits,
        s.join? output = some state ∧ JoinHistory s.jobId output state visits stages
  owned
    : ∀ stage ∈ stages,
        stage.isBuild = true →
          ∃ a ∈ g.atomics, a.kind = .joinSets ∧ stage.BuildsFor s.jobId a.output
  unsplit
    : ∀ hashSet,
        s.join? output = some (.started .broadcast hashSet) →
          (∃ stage ∈ stages,
            ∃ set, stage.sink? = some set ∧ set.key = probeKey s.jobId output) →
            g.TakesProbeSet s.jobId output

/-- The state of a join is that of the node which stood for it at the beginning. -/
theorem Reaches.join?_eq (reaches : Reaches g first s followed)
    (inside : first.topology.arena.Has p)
    : s.join? (first.topology.arena.node p).atomic.output = (s.node p).join? := by
  have frame := reaches.descends.frame
  have found : s.topology.arena.lookup (first.topology.arena.node p).atomic.output = some p :=
    reaches.wired.sound.lookup_eq_some_iff.mpr ⟨frame.has_iff.mpr inside, frame.output p⟩
  rw [join?, found]
  rfl

theorem kind_of_join? {node : PhysicalNode} {state : JoinState} (here : node.join? = some state)
    : node.kind = .join state := by
  cases kind : node.kind with
  | join own =>
      rw [PhysicalNode.join?, kind] at here
      rw [Option.some.inj here]
  | pipeline | aggregation | partition => simp [PhysicalNode.join?, kind] at here

/-- Every join is visited twice at most in any run: the first visit starts it and builds its hash
table, the second one probes that very table, and once it is started its state stays.
-/
theorem join_twoVisits {jobId : String} {g : Graph} {config : PlannerConfig} {first : Session}
    (started : Session.start jobId g config = .ok first) {a : Atomic}
    (member : a ∈ g.atomics) (join : a.kind = .joinSets)
    : first.join? a.output = some .notStarted
      ∧ (∀ calls,
          TwoVisits g (first.run calls).2 a.output (first.run calls).1.stages)
      ∧ ∀ calls more strategy hashSet,
          (first.run calls).2.join? a.output = some (.started strategy hashSet) →
            (first.run (calls ++ more)).2.join? a.output = some (.started strategy hashSet) := by
  obtain ⟨beginning, rfl, -⟩ := beginning_of_start started
  have ran := (steady_joinsKept _ first).run ⟨[], beginning.reaches, beginning.joinsKept⟩
  obtain ⟨p, inside, rfl⟩ := beginning.mirrors.covers a member
  refine ⟨?_, ?_, ?_⟩
  · rw [beginning.reaches.join?_eq inside, PhysicalNode.join?, node,
      beginning.mirrors.unstarted p inside, join]
    rfl
  · intro calls
    obtain ⟨followed, reaches, kept⟩ := ran calls
    have frame := reaches.descends.frame
    have there := frame.has_iff.mpr inside
    have output
        : ((first.run calls).2.node p).output = (first.topology.arena.node p).atomic.output :=
      frame.output p
    obtain ⟨state, kind⟩ := (reaches.wired.join_iff there).mpr (by rw [frame.atomic]; exact join)
    have history := kept.histories p there state kind
    rw [output] at history
    refine ⟨⟨state, _, ?_, history⟩, kept.builds, ?_⟩
    · rw [reaches.join?_eq inside, PhysicalNode.join?, node, kind]
    · rintro hashSet isStarted ⟨stage, listed, set, written, same⟩
      have broadcast := kind_of_join? ((reaches.join?_eq inside).symm.trans isStarted)
      rw [← output] at same ⊢
      refine (kept.splits stage listed set written p there same).resolve_left ?_
      rintro ⟨other, partitioned⟩
      have both := broadcast.symm.trans partitioned
      simp at both
  · intro calls more strategy hashSet isStarted
    obtain ⟨_, before, -⟩ := ran calls
    obtain ⟨_, after, -⟩ := ran (calls ++ more)
    have here := kind_of_join? ((before.join?_eq inside).symm.trans isStarted)
    have later := (steady_started p strategy hashSet).run (s := (first.run calls).2) here more
    rw [← run_append_snd] at later
    refine (after.join?_eq inside).trans ?_
    rw [PhysicalNode.join?, show ((first.run (calls ++ more)).2.node p).kind = _ from later]

/-- The hash table of a join that is broadcast is built at the first increment, and probed at the
second one.
-/
theorem everyKind_twoVisits
    : ∃ first,
        Session.start "job" everyKind .standard = .ok first
        ∧ first.join? "both" = some .notStarted
        ∧ TwoVisits everyKind (first.run (List.replicate 8 (.planIncrement, .empty))).2 "both"
            (first.run (List.replicate 8 (.planIncrement, .empty))).1.stages
        ∧ (first.run (List.replicate 8 (.planIncrement, .empty))).2.join? "both"
          = some (.started .broadcast "job:both_broadcastData") := by
  have starts : (Session.start "job" everyKind .standard).isOk = true := by decide +kernel
  have join : Atomic.join "both" "l" "r" "join" ∈ everyKind.atomics := by decide +kernel
  obtain ⟨first, outcome⟩ := Except.isOk_iff.mp starts
  obtain ⟨waits, visits, stays⟩ := join_twoVisits outcome join rfl
  have once : ((Session.start "job" everyKind .standard).toOption.bind fun first =>
      (first.run [(.planIncrement, .empty)]).2.join? "both")
        = some (.started .broadcast "job:both_broadcastData") := by
    decide +kernel
  rw [outcome] at once
  exact ⟨first, outcome, waits, visits _,
    stays [(.planIncrement, .empty)] (List.replicate 7 (.planIncrement, .empty)) _ _ once⟩

/-- A job that saves a join's output in the set that the probing side would be split into. -/
def probeSetTaken : Graph :=
  .ofLists
    [.scan "scan_l" "db" "left", .scan "scan_r" "db" "right", .ofKind "join" .join,
      (Computation.ofKind "save" .write).setOutput "job" "both_probeRepartitionData"]
    [.scan "l" "scan_l", .scan "r" "scan_r", .join "both" "l" "r" "join",
      .apply "saved" "both" "save"]

/-- A stage can write the set of that name although the join's building side is broadcast. -/
theorem probeSetTaken_written
    : ∃ first calls hashSet,
        Session.start "job" probeSetTaken .standard = .ok first
        ∧ (first.run calls).2.join? "both" = some (.started .broadcast hashSet)
        ∧ ∃ stage ∈ (first.run calls).1.stages,
            ∃ set, stage.sink? = some set ∧ set.key = probeKey "job" "both" := by
  have written : ((Session.start "job" probeSetTaken .standard).toOption.map fun first =>
      let (increment, s) := first.run (List.replicate 2 (.planIncrement, .empty))
      (s.join? "both",
        increment.stages.any fun stage =>
          stage.sink?.any fun set => set.key == probeKey "job" "both"))
        = some (some (.started .broadcast "job:both_broadcastData"), true) := by
    decide +kernel
  obtain ⟨first, outcome, written⟩ := Except.toOption_map_eq_some_iff.mp written
  simp only [Prod.mk.injEq, List.any_eq_true, Option.any_eq_true, beq_iff_eq] at written
  obtain ⟨state, stage, member, set, sink, same⟩ := written
  exact ⟨first, _, _, outcome, state, stage, member, set, sink, same⟩

end Session

end DataflowPlan
