import DataflowPlan.Proofs.Analysis.Origins
import DataflowPlan.Proofs.Session.JoinProtocol

/-! The names of a job's sets. Every set that a run declares has an origin of its own, but sets of
different origins can go by the same name: the output of one atomic may be called as a set that is
made for another one.
-/

namespace DataflowPlan

/-- What is put behind the output of a breaker to name the further sets that are declared for it. -/
def AtomicKind.endings : AtomicKind → List String
  | .scan | .partition | .other => []
  | .aggregate => ["_aggregationData", "_combinerData"]
  | .joinSets => ["_broadcastData", "_repartitionData", "_probeRepartitionData"]

/-- All that is put behind the outputs of breakers. -/
def breakerEndings : List String :=
  AtomicKind.aggregate.endings ++ AtomicKind.joinSets.endings

theorem AtomicKind.endings_subset (kind : AtomicKind)
    : kind.endings ⊆ breakerEndings := by
  cases kind <;> decide

/-- An ending tells the kind of breaker that it is for. -/
theorem AtomicKind.eq_of_ending {kind breaker : AtomicKind} {ending : String}
    (member : ending ∈ kind.endings) (known : ending ∈ breaker.endings)
    : kind = breaker := by
  have apart : ∀ x ∈ kind.endings, x ∈ breaker.endings → kind = breaker := by
    cases kind <;> cases breaker <;> decide
  exact apart ending member known

/-- Outputs with endings behind them are called alike only if both are the same.
Witness: no ending ends with another one.
-/
theorem eq_of_append_ending {left right ending more : String} (member : ending ∈ breakerEndings)
    (member' : more ∈ breakerEndings) (same : left ++ ending = right ++ more)
    : left = right ∧ ending = more := by
  have apart : ∀ x ∈ breakerEndings, ∀ y ∈ breakerEndings,
      x.toList <:+ y.toList ∨ y.toList <:+ x.toList → x = y := by
    decide
  obtain rfl := apart _ member _ member' (suffix_of_append_eq same)
  exact ⟨(String.append_left_inj _).mp same, rfl⟩

namespace View.Makes

variable {v : View} {q : NodeId} {suffix : String}

/-- Only the probing side of a join that is started is split by key. -/
theorem started (makes : v.Makes q suffix) (split : suffix = "_probeRepartitionData")
    : ∃ hashSet, (v.node q).IsStarted .hashPartitioned hashSet := by
  cases makes with
  | split started => exact ⟨_, started⟩
  | gathered found unkept read | shuffled kind | combined kind => simp at split
  | @built strategy kind => cases strategy <;> simp [buildSuffix] at split

/-- What is put behind an output is nothing, or an ending for the kind of its atomic. -/
theorem suffix_cases {g : Graph} (makes : v.Makes q suffix)
    (wired : Arena.Wired g v.topology.arena) (inside : v.topology.arena.Has q)
    : suffix = "" ∨ suffix ∈ (v.node q).atomic.kind.endings := by
  have aggregate : (v.node q).kind = .aggregation → (v.node q).atomic.kind = .aggregate :=
    (wired.aggregation_iff inside).mp
  have join : ∀ state, (v.node q).kind = .join state → (v.node q).atomic.kind = .joinSets :=
    fun state kind => (wired.join_iff inside).mp ⟨state, kind⟩
  cases makes with
  | gathered found unkept read => exact .inl rfl
  | shuffled kind | combined kind =>
      rw [aggregate kind]
      exact .inr (by decide)
  | @built strategy kind =>
      rw [join _ kind]
      exact .inr (by cases strategy <;> decide)
  | split started =>
      rw [join _ started]
      exact .inr (by decide)

end View.Makes

namespace Session

/-- A set of this origin was declared and cannot be declared again: the computation keeps its
output, or the edges to the node that have to be fresh for it were followed.
-/
structure Spent (s : Session) (followed : List Arena.Edge) (origin : Origin) : Prop where
  inside : s.topology.arena.Has origin.node
  suffix
    : origin.suffix = ""
      ∨ origin.suffix ∈ (s.node origin.node).atomic.kind.endings
  placed
    : origin.suffix = "" →
        ∃ c,
          s.topology.graph.computation (s.node origin.node).atomic.computation = .ok c
          ∧ c.materializeOutput = true
  shuffled
    : origin.suffix = "_aggregationData" ∨ origin.suffix = "_combinerData" →
        ∃ q, (q, origin.node) ∈ followed
  built
    : ∀ strategy,
        origin.suffix = View.buildSuffix strategy →
          ∃ how hashSet, (s.node origin.node).IsStarted how hashSet
  split
    : origin.suffix = "_probeRepartitionData" → s.topology.arena.Reached followed origin.node

/-- The sets so far come from origins that are all different and spent. -/
structure Traces (followed : List Arena.Edge) (out : Increment) (s : Session)
    (origins : List Origin) : Prop where
  unique : origins.Nodup
  spent : ∀ origin ∈ origins, Spent s followed origin
  keys
    : out.intermediateSets.map SetId.key
      = origins.map fun origin =>
          setKey s.jobId ((s.node origin.node).output ++ origin.suffix)

variable {g : Graph} {first s : Session} {followed : List Arena.Edge} {stats : Statistics}
  {skip : List String} {key : String} {source last p : NodeId} {init : List NodeId}
  {reached next : StageId} {segment inner : Segment} {set : SetId} {out : Increment}
  {origin : Origin} {suffix : String}

theorem traces_empty (s : Session) : Traces [] .empty s [] :=
  ⟨.nil, by simp, rfl⟩

section Planned

variable (reaches : ReachesNamed g first s followed)
  (course : (s.view stats).Course source init last segment)

include reaches course

/-- A pipeline makes nothing at a node that is spent. -/
theorem Spent.not_makes (spent : Spent s followed ⟨p, suffix⟩) (member : p ∈ init ++ [last])
    : ¬ (s.view stats).Makes p suffix := by
  have wired : Arena.Wired g s.topology.arena := reaches.wired
  obtain ⟨q, edge, fresh⟩ := exists_fresh_edge (v := s.view stats) wired reaches.ledger course
    member
  -- an aggregate is come to along one edge alone
  have single : (s.node p).kind = .aggregation → ¬ ∃ q', (q', p) ∈ followed := by
    rintro kind ⟨q', came⟩
    have aggregate := (wired.aggregation_iff spent.inside).mp kind
    have once := wired.breaker_single spent.inside (.inl aggregate)
    obtain rfl := wired.producer_unique once (reaches.ledger.edges _ came) edge
    exact fresh came
  intro makes
  cases makes with
  | gathered found unkept read =>
      obtain ⟨c, there, kept⟩ := spent.placed rfl
      obtain rfl := Except.ok.inj (there.symm.trans found)
      simp [unkept] at kept
  | shuffled kind => exact single kind (spent.shuffled (.inl rfl))
  | combined kind found uses => exact single kind (spent.shuffled (.inr rfl))
  | built kind =>
      obtain ⟨how, hashSet, started⟩ := spent.built _ rfl
      have both := kind.symm.trans started
      simp at both
  | split started =>
      have join := (wired.join_iff spent.inside).mp ⟨_, started⟩
      rcases spent.split rfl with scan | ⟨-, complete⟩
      · have both := join.symm.trans scan
        simp at both
      · exact fresh (complete join q edge)

omit reaches in
theorem atomic_committed (key : String) (reached : StageId) (p : NodeId)
    : ((s.commit key source reached segment).node p).atomic = (s.node p).atomic := by
  rw [node_commit]
  exact course.frame.atomic p

/-- What was spent before a pipeline is so after it. -/
theorem Spent.commit (spent : Spent s followed origin) (key : String) (reached : StageId)
    : Spent (s.commit key source reached segment)
        (followed ++ links (Arena.coursePath source init last)) origin := by
  have atomic := atomic_committed course key reached origin.node
  refine ⟨?_, ?_, ?_, ?_, ?_, ?_⟩
  · rw [topology_commit]
    exact course.frame.has_iff.mpr spent.inside
  · rw [atomic]
    exact spent.suffix
  · intro plain
    obtain ⟨c, found, keeps⟩ := spent.placed plain
    obtain ⟨d, after, derived⟩ := (course.kept reaches.named).exists_derived found
    rw [atomic, topology_commit]
    exact ⟨d, after, (derived.kept keeps).1⟩
  · intro which
    obtain ⟨q, came⟩ := spent.shuffled which
    exact ⟨q, List.mem_append_left _ came⟩
  · intro strategy which
    obtain ⟨how, hashSet, started⟩ := spent.built strategy which
    exact ⟨how, hashSet, started_commit course started⟩
  · intro which
    rw [topology_commit]
    exact (course.frame.reached_iff _ _).mpr (spent.split which).mono

/-- A node whose output goes to the set of its name keeps it there from then on.
Witness: the computation kept its output before, or is redirected; a hash table has another name.
-/
theorem keeps_of_placed (new : segment.newSource = some (p, set))
    (key : set.key = setKey s.jobId (s.node p).output)
    : ∃ c,
        (segment.apply s.topology).graph.computation (s.node p).atomic.computation = .ok c
        ∧ c.materializeOutput = true := by
  obtain rfl := eq_last_of_newSource course new
  cases course.sourced new with
  | kept found keeps names same graph =>
      rw [show (segment.apply s.topology).graph = _ from graph]
      exact ⟨_, found, keeps⟩
  | @redirected c found _ same graph =>
      have there : s.topology.graph.computation (s.node p).atomic.computation = .ok c := found
      have name := reaches.named _ _ (Graph.computation_eq_ok.mp there)
      have after := Graph.computation_modify there c.name (·.setOutput s.jobId (s.node p).output)
      rw [if_pos name.symm] at after
      rw [show (segment.apply s.topology).graph = _ from graph]
      exact ⟨_, after, rfl⟩
  | handed kind same graph =>
      have names : (s.node p).output ++ "_aggregationResult" = (s.node p).output :=
        setKey_inj (same.symm.trans key)
      simp [← String.toList_inj] at names

/-- What a pipeline makes is spent from then on. -/
theorem spent_of_made (member : p ∈ init ++ [last])
    (makes : (s.view stats).Makes p suffix)
    (placed
      : suffix = "" →
          ∃ set,
            segment.newSource = some (p, set)
            ∧ set.key = (s.view stats).originKey ⟨p, suffix⟩)
    (key : String) (reached : StageId)
    : Spent (s.commit key source reached segment)
        (followed ++ links (Arena.coursePath source init last)) ⟨p, suffix⟩ := by
  have wired : Arena.Wired g (s.view stats).topology.arena := reaches.wired
  have ledger : (s.view stats).topology.arena.Ledger followed := reaches.ledger
  have inside := has_of_path wired ledger course member
  obtain ⟨q, link⟩ := exists_link_to source member
  have atomic : ((s.commit key source reached segment).node p).atomic
      = ((s.view stats).node p).atomic := atomic_committed course key reached p
  refine ⟨?_, ?_, ?_, ?_, ?_, ?_⟩
  · rw [topology_commit]
    exact course.frame.has_iff.mpr inside
  · rw [atomic]
    exact makes.suffix_cases wired inside
  · rintro rfl
    obtain ⟨set, new, named⟩ := placed rfl
    rw [atomic, topology_commit]
    have named : set.key = setKey s.jobId ((s.node p).output ++ "") := named
    rw [String.append_empty] at named
    exact keeps_of_placed reaches course new named
  · exact fun _ => ⟨q, List.mem_append_right _ link⟩
  · rintro strategy which
    have ending : suffix ∈ AtomicKind.joinSets.endings := by
      obtain rfl : suffix = View.buildSuffix strategy := which
      cases strategy <;> decide
    have join : ((s.view stats).node p).atomic.kind = .joinSets := by
      rcases makes.suffix_cases wired inside with rfl | known
      · exact absurd ending (by decide)
      · exact AtomicKind.eq_of_ending known ending
    obtain ⟨how, hashSet, started⟩ := (Arena.started_after wired ledger course p).mpr
      ⟨join, q, List.mem_append_right _ link⟩
    refine ⟨how, hashSet, ?_⟩
    rw [PhysicalNode.IsStarted, node_commit]
    exact started
  · intro which
    rw [topology_commit]
    obtain ⟨hashSet, started⟩ := makes.started which
    exact (course.frame.reached_iff _ _).mpr
      (Arena.reached_of_crossed wired ledger course link ⟨_, hashSet, started⟩)

/-- A pipeline declares sets of new origins, which are spent from then on. -/
theorem Traces.commit {origins : List Origin} (traces : Traces followed out s origins)
    (pipeline
      : (s.view stats).Pipeline next ((s.view stats).sourceDraft source set) source
          (init ++ [last]) inner)
    (whole : segment = inner.through source) (key : String) (reached : StageId)
    : ∃ more,
        Traces (followed ++ links (Arena.coursePath source init last))
          (out.append ⟨segment.stages, segment.intermediateSets⟩)
          (s.commit key source reached segment) (origins ++ more) := by
  have wired : Arena.Wired g (s.view stats).topology.arena := reaches.wired
  have once := path_nodup wired reaches.ledger course
  obtain ⟨more, originates⟩ := pipeline.originates once
  obtain ⟨jobId, -⟩ := settings_commit s key source reached segment
  refine ⟨more, ?_, ?_, ?_⟩
  · refine List.nodup_append.mpr ⟨traces.unique, originates.unique, ?_⟩
    rintro origin before _ now rfl
    obtain ⟨onPath, makes⟩ := originates.made origin now
    exact (traces.spent origin before).not_makes reaches course onPath makes
  · intro origin member
    rcases List.mem_append.mp member with before | now
    · exact (traces.spent origin before).commit reaches course key reached
    · obtain ⟨onPath, makes⟩ := originates.made origin now
      refine spent_of_made reaches course onPath makes ?_ key reached
      rw [whole]
      exact originates.placed origin now
  · have output : ∀ p, ((s.commit key source reached segment).node p).output
        = (s.node p).output :=
      fun p => congrArg Atomic.output (atomic_committed course key reached p)
    have sets : segment.intermediateSets = inner.intermediateSets := by rw [whole]; rfl
    simp only [Increment.append, List.map_append, traces.keys, sets, originates.keys, output,
      jobId]
    rfl

end Planned

theorem Spent.of_alike {m : Session} (spent : Spent s followed origin)
    (frame : m.topology.arena.Frame s.topology.arena) (graph : m.topology.graph = s.topology.graph)
    (kind : ∀ p, (m.node p).kind = (s.node p).kind)
    : Spent m followed origin := by
  have atomic : (m.node origin.node).atomic = (s.node origin.node).atomic := frame.atomic _
  refine ⟨frame.has_iff.mpr spent.inside, ?_, ?_, spent.shuffled, ?_, ?_⟩
  · rw [atomic]
    exact spent.suffix
  · rw [atomic, graph]
    exact spent.placed
  · simp only [PhysicalNode.IsStarted, kind]
    exact spent.built
  · exact fun which => (frame.reached_iff _ _).mpr (spent.split which)

theorem Traces.penalize {origins : List Origin} (traces : Traces followed out s origins)
    (key : String) (source : NodeId)
    : Traces followed out (s.penalize key source) origins := by
  have frame := Arena.frame_rotate s.topology.arena source
  refine ⟨traces.unique, ?_, ?_⟩
  · exact fun origin member => (traces.spent origin member).of_alike frame rfl
      (Arena.kind_rotate s.topology.arena source)
  · have output : ∀ p, ((s.penalize key source).node p).output = (s.node p).output := frame.output
    simp only [output]
    exact traces.keys

/-- In every session that a run leads to, the sets so far come from different origins. -/
theorem steady_traces (g : Graph) (first : Session)
    : Steady fun out s =>
        ∃ followed, ReachesNamed g first s followed ∧ ∃ origins, Traces followed out s origins :=
  steady_of_named (P := fun followed out s => ∃ origins, Traces followed out s origins)
    (by
      rintro followed out s stats skip key source reached segment init last set inner reaches
        ⟨origins, traces⟩ _ course pipeline whole
      obtain ⟨more, after⟩ := traces.commit reaches course pipeline whole key reached
      exact ⟨_, after⟩)
    (fun ⟨origins, traces⟩ key source => ⟨origins, traces.penalize key source⟩)
    (fun ⟨origins, traces⟩ => ⟨origins, traces.unique,
      fun origin member => (traces.spent origin member).of_alike (.refl _) rfl fun _ => rfl,
      traces.keys⟩)

-----------------------------------------------------------------------------------------------
-- Plans
-----------------------------------------------------------------------------------------------

/-- The intermediate sets of the plan are made for outputs of the graph, by names that say which:
each is an atomic with what is put behind its output, and no two are the same.
-/
structure NamedBy (g : Graph) (plan : Plan) (names : List (Atomic × String)) : Prop where
  unique : names.Nodup
  known
    : ∀ name ∈ names,
        name.1 ∈ g.atomics ∧ (name.2 = "" ∨ name.2 ∈ name.1.kind.endings)
  keys
    : plan.intermediateSets.map SetId.key
      = names.map fun name => setKey plan.jobId (name.1.output ++ name.2)

/-- An output that is materialized is called as another one with an ending behind it, for which a
set is declared as well.
-/
def Clash (names : List (Atomic × String)) : Prop :=
  ∃ a b ending,
    (a, "") ∈ names
    ∧ (b, ending) ∈ names
    ∧ ending ≠ ""
    ∧ a.output = b.output ++ ending

/-- No output of the graph is called as that of a breaker with an ending for its kind behind it. -/
def EndingsFree (g : Graph) : Prop :=
  ∀ a ∈ g.atomics, ∀ b ∈ g.atomics, ∀ ending ∈ b.kind.endings, a.output ≠ b.output ++ ending

variable {plan : Plan} {names : List (Atomic × String)}

/-- Two names that are called alike are the same, or one of them clashes with the other. -/
theorem NamedBy.eq_or_clash (named : NamedBy g plan names) (distinct : g.outputs.Nodup)
    {left right : Atomic × String} (member : left ∈ names) (member' : right ∈ names)
    (same : left.1.output ++ left.2 = right.1.output ++ right.2)
    : left = right ∨ Clash names := by
  obtain ⟨a, ending⟩ := left
  obtain ⟨b, more⟩ := right
  obtain ⟨known, which⟩ := named.known _ member
  obtain ⟨known', which'⟩ := named.known _ member'
  have equal : a.output = b.output → a = b :=
    List.inj_on_of_nodup_map distinct known known'
  by_cases plain : ending = ""
  · by_cases plain' : more = ""
    · subst plain plain'
      simp only [String.append_empty] at same
      exact .inl (by rw [equal same])
    · subst plain
      simp only [String.append_empty] at same
      exact .inr ⟨a, b, more, member, member', plain', same⟩
  · by_cases plain' : more = ""
    · subst plain'
      simp only [String.append_empty] at same
      exact .inr ⟨b, a, ending, member', member, plain, same.symm⟩
    · obtain ⟨outputs, rfl⟩ := eq_of_append_ending
        (a.kind.endings_subset (which.resolve_left plain))
        (b.kind.endings_subset (which'.resolve_left plain')) same
      exact .inl (by rw [equal outputs])

/-- The keys of the sets are different exactly if no output clashes with an ending. -/
theorem NamedBy.nodup_iff (named : NamedBy g plan names) (distinct : g.outputs.Nodup)
    : (plan.intermediateSets.map SetId.key).Nodup ↔ ¬ Clash names := by
  rw [named.keys]
  constructor
  · rintro different ⟨a, b, ending, plain, ended, nonempty, same⟩
    have equal := List.inj_on_of_nodup_map different plain ended (by simp [same])
    exact nonempty (Prod.mk.inj equal).2.symm
  · intro free
    refine named.unique.map_on ?_
    intro left member right member' same
    exact (named.eq_or_clash distinct member member' (setKey_inj same)).resolve_right free

theorem NamedBy.not_clash (named : NamedBy g plan names) (free : EndingsFree g)
    : ¬ Clash names := by
  rintro ⟨a, b, ending, plain, ended, nonempty, same⟩
  obtain ⟨known, which⟩ := named.known _ ended
  exact free a (named.known _ plain).1 b known ending (which.resolve_left nonempty) same

/-- A plan of all has its sets named by outputs of the graph.
Witness: it is what some run plans, in which every set has an origin of its own.
-/
theorem Beginning.exists_namedBy {stats : Statistics} {next : Session}
    (beginning : first.Beginning g) (named : g.Named)
    (planned : first.planAll stats = (.ok plan, next))
    : ∃ names, NamedBy g plan names := by
  obtain ⟨-, calls, ran, jobId⟩ := planAll_eq_ok planned
  obtain ⟨followed, reaches, origins, traces⟩ := (steady_traces g first).run
    ⟨[], beginning.reachesNamed named, [], traces_empty first⟩ calls
  rw [ran] at reaches traces
  refine ⟨origins.map fun origin => ((next.node origin.node).atomic, origin.suffix), ?_, ?_, ?_⟩
  · refine traces.unique.map_on ?_
    rintro ⟨p, suffix⟩ member ⟨q, other⟩ member' same
    obtain ⟨atomic, rfl⟩ := Prod.mk.inj same
    have inside := (traces.spent _ member).inside
    have inside' := (traces.spent _ member').inside
    obtain rfl := reaches.wired.sound.id_eq inside inside' (congrArg Atomic.output atomic)
    rfl
  · intro name member
    obtain ⟨origin, listed, rfl⟩ := List.mem_map.mp member
    have spent := traces.spent origin listed
    exact ⟨reaches.wired.known _ spent.inside, spent.suffix⟩
  · rw [List.map_map, jobId, ← reaches.descends.jobId]
    exact traces.keys

end Session

end DataflowPlan
