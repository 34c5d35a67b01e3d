import DataflowPlan.Proofs.Analysis.Arrival
import DataflowPlan.Proofs.Session.Stalling

/-! Progress on join trees. Some source is never refused, every source has a turn in each increment,
and no analysis fails, so that planning goes on to the end whatever the statistics are.
-/

namespace DataflowPlan

theorem Arena.modify_eq_self {arena : Arena} {id : NodeId} {change : PhysicalNode → PhysicalNode}
    (same : change (arena.node id) = arena.node id)
    : arena.modify id change = arena := by
  obtain ⟨nodes⟩ := arena
  refine congrArg Arena.mk (List.ext_getElem? fun index => ?_)
  rw [List.getElem?_modify]
  split
  · next here =>
      subst here
      cases found : nodes[id.index]? with
      | none => rfl
      | some node =>
          have there : Arena.node ⟨nodes⟩ id = node := by simp [Arena.node, found]
          rw [there] at same
          simp [same]
  · cases nodes[index]? <;> rfl

namespace Session

variable {g : Graph} {first s : Session} {stats : Statistics} {skip : List String}

/-- What is already in front need not be brought there. -/
theorem front_eq_self {source consumer : NodeId} {others : List NodeId}
    (active : (s.node source).active = consumer :: others)
    : s.front source consumer = s := by
  have same : s.topology.arena.modify source (·.bring consumer) = s.topology.arena := by
    refine Arena.modify_eq_self ?_
    change (s.node source).bring consumer = s.node source
    rw [PhysicalNode.bring, active, List.erase_cons_head, ← active]
  rw [front, same]

theorem length_liveSources_le (s : Session) : s.liveSources.length ≤ s.budget := by
  have each : ∀ entries : List (String × NodeId),
      (entries.filter fun e => s.isLive e.2).length
        ≤ (entries.map Prod.snd).foldr (fun id total => (s.node id).active.length + total) 0 := by
    intro entries
    induction entries with
    | nil => simp
    | cons head rest ih =>
        rw [List.filter_cons, List.map_cons, List.foldr_cons]
        split
        · next live =>
            have some := List.length_pos_iff.mpr (isLive_iff.mp live)
            rw [List.length_cons]
            omega
        · omega
  exact each s.sources.entries

/-- Every live source has a turn. -/
theorem turns_pos (stats : Statistics) {e : String × NodeId} (live : e ∈ s.liveSources)
    : 0 < s.turns stats e := by
  have bounds := turns_bounds stats live
  have few := s.prune.length_liveSources_le
  rw [liveSources_prune] at few
  have some : 0 < s.evenShare :=
    Nat.div_pos (by omega) (List.length_pos_of_mem live)
  omega

/-- A session that plans a join tree, with all its live sources registered. -/
structure InTree (g : Graph) (s : Session) : Prop where
  view : ∃ followed, ∀ stats, (s.view stats).OfTree g followed
  keyed : s.Keyed
  registered : s.Registered

theorem ofTree_of_reaches (beginning : first.Beginning g) (tree : g.JoinTree)
    {followed : List Arena.Edge} (reaches : ReachesNamed g first s followed)
    : (s.view stats).OfTree g followed :=
  ⟨tree, reaches.wired, reaches.ledger, beginning.graph ▸ reaches.kept,
    reaches.named⟩

/-- Whatever was planned and refused, no live source was lost: none is new. -/
theorem inTree_of_waits (beginning : first.Beginning g) (named : g.Named) (tree : g.JoinTree)
    (calls : List (Call × Statistics)) (waits : (first.run calls).2.Waits s)
    : s.InTree g := by
  obtain ⟨followed, reaches, keyed⟩ := beginning.keyed_of_waits named calls waits
  refine ⟨⟨followed, fun stats => ofTree_of_reaches beginning tree reaches⟩, keyed, ?_⟩
  refine (registered_of_free beginning named ?_ calls).waits waits
  rintro calls stats c m key source reached segment plans ⟨id, set, other, kept, new, -⟩
  obtain ⟨followed, reaches, -⟩ := beginning.keyed_of_waits named _ plans.waits
  obtain ⟨skip, done⟩ := plans.committed
  obtain ⟨init, last, course⟩ := done.course
  obtain ⟨closing, closes, source', -⟩ := course.closes
  have none := (ofTree_of_reaches beginning tree reaches).newSource_eq_none
    (reaches.has_last course) closes
  rw [source', none] at new
  simp at new

namespace InTree

variable (inTree : s.InTree g)

include inTree

/-- Some live source is not refused.
Witness: while a join is not started, a source behind its side without joins; after that any source.
-/
theorem exists_accepted (busy : s.hasSources = true) (stats : Statistics)
    : ∃ e ∈ s.liveSources, ((s.view stats).analyze e.2 s.nextStage).verdict ≠ .refused := by
  obtain ⟨followed, ofTree⟩ := inTree.view
  by_cases waiting : ∃ join, (s.node join).kind = .join .notStarted
  · obtain ⟨join, kind⟩ := waiting
    obtain ⟨source, isSource, active, accepted⟩ := (ofTree stats).exists_accepted kind
    obtain ⟨key, found⟩ := inTree.registered source ⟨isSource, active⟩
    exact ⟨(key, source), mem_liveSources_iff.mpr ⟨found, active⟩, accepted _⟩
  · obtain ⟨e, live⟩ := hasSources_iff.mp busy
    exact ⟨e, live, fun refused => waiting (View.analyze_refused refused)⟩

theorem not_failed {error : Error} {next : Session}
    (failed : s.attempt stats skip = (.failed error, next))
    : False := by
  unfold attempt at failed
  cases picked : s.pick stats skip with
  | none => simp [picked] at failed
  | some choice =>
      obtain ⟨key, source⟩ := choice
      simp only [picked] at failed
      obtain ⟨found, active⟩ := mem_liveSources_iff.mp (mem_of_pick picked)
      obtain ⟨set, isSource, -⟩ := inTree.keyed.entries key source found
      obtain ⟨followed, ofTree⟩ := inTree.view
      have isSource : ((s.view stats).node source).sourceSet = some set := isSource
      have settles : ((s.view stats).analyze source s.nextStage).FailsOnly fun _ => False :=
        (ofTree stats).analyze_settles (by simp [isSource]) active
      cases verdict : ((s.view stats).analyze source s.nextStage).verdict with
      | planned segment => simp [verdict] at failed
      | refused => simp [verdict] at failed
      | failed found => exact settles found verdict

theorem not_stalls (stats : Statistics) : ¬ s.Stalls stats := by
  intro stalls
  obtain ⟨busy, refused⟩ := inTree.keyed.stalls_iff.mp stalls
  obtain ⟨e, live, accepted⟩ := inTree.exists_accepted busy stats
  obtain ⟨consumer, others, active⟩ :=
    List.exists_cons_of_ne_nil (mem_liveSources_iff.mp live).2
  have turn : consumer ∈ (s.node e.2).active.take (s.turns stats e) := by
    obtain ⟨turns, more⟩ := Nat.exists_eq_add_one.mpr (turns_pos stats live)
    rw [active, more, List.take_succ_cons]
    simp
  have front := refused e live consumer turn
  rw [Refuses, front_eq_self active] at front
  exact accepted front

end InTree

/-- Every increment on a join tree succeeds. -/
theorem planIncrement_ok (beginning : first.Beginning g) (named : g.Named) (tree : g.JoinTree)
    (calls : List (Call × Statistics)) (stats : Statistics)
    : ∃ increment next, (first.run calls).2.planIncrement stats = (.ok increment, next) := by
  have inTree := inTree_of_waits beginning named tree calls .here
  have ends := (first.run calls).2.planIncrement_comesTo stats
  have noStall := inTree.not_stalls stats
  rw [Stalls] at noStall
  generalize (first.run calls).2.planIncrement stats = result at ends noStall
  cases ends with
  | idle tries none => exact ⟨_, _, rfl⟩
  | planned tries planned => exact ⟨_, _, rfl⟩
  | failed tries failed =>
      exact ((inTree_of_waits beginning named tree calls tries.waits).not_failed failed).elim
  | stalled tries refused => exact absurd ⟨.stalled _ _, trivial, rfl⟩ noStall

/-- Increments until no source is left, each with statistics of its own. -/
def planEach : Nat → (Nat → Statistics) → Plan → Session → Except Error Plan × Session
  | 0, _, plan, s => (.ok plan, s.prune)
  | fuel + 1, stats, plan, s =>
    if !s.hasSources then (.ok plan, s.prune)
    else
      match s.planIncrement (stats 0) with
      | (.ok increment, s) => planEach fuel (fun i => stats (i + 1)) (plan.extend increment) s
      | (.error error, s) => (.error error, s)

/-- Planning all uses the same statistics every time. -/
theorem planWithin_eq_planEach (stats : Statistics) (fuel : Nat) (plan : Plan) (s : Session)
    : planWithin stats fuel plan s = planEach fuel (fun _ => stats) plan s := by
  induction fuel generalizing plan s with
  | zero => rfl
  | succ fuel ih =>
      rw [planWithin, planEach]
      split
      · rfl
      · cases s.planIncrement stats with
        | mk step next =>
            cases step with
            | error error => rfl
            | ok increment => exact ih _ _

/-- Increments on a join tree succeed until no source is left.
Witness: induction on the fuel, which is never less than the consumers that are left to plan.
-/
theorem planEach_ok (beginning : first.Beginning g) (named : g.Named) (tree : g.JoinTree)
    (fuel : Nat) (stats : Nat → Statistics) (plan : Plan) (calls : List (Call × Statistics))
    (enough : (first.run calls).2.topology.arena.activeCount ≤ fuel)
    : ∃ whole next,
        planEach fuel stats plan (first.run calls).2 = (.ok whole, next)
        ∧ next.hasSources = false := by
  induction fuel generalizing stats plan calls with
  | zero =>
      refine ⟨_, _, rfl, ?_⟩
      rw [hasSources_prune, Bool.eq_false_iff, ne_eq, hasSources_iff]
      rintro ⟨⟨key, id⟩, live⟩
      exact (mem_liveSources_iff.mp live).2
        (Arena.active_eq_nil_of_activeCount (Nat.le_zero.mp enough) id)
  | succ fuel ih =>
      rw [planEach]
      cases live : (first.run calls).2.hasSources with
      | false =>
          refine ⟨_, _, rfl, ?_⟩
          rw [hasSources_prune, live]
      | true =>
          obtain ⟨increment, next, planned⟩ :=
            planIncrement_ok beginning named tree calls (stats 0)
          have fewer := activeCount_of_planIncrement live planned
          have ran : (first.run (calls ++ [(.planIncrement, stats 0)])).2 = next := by
            rw [run_concat, call, planned, collect]
          simp only [Bool.not_true, Bool.false_eq_true, if_false, planned]
          have rest := ih (fun i => stats (i + 1)) (plan.extend increment)
            (calls ++ [(.planIncrement, stats 0)]) (by rw [ran]; omega)
          rw [ran] at rest
          exact rest

/-- Every join tree whose computations are filed under their own names is planned to the end, with
fixed statistics or with others for each increment.
-/
theorem joinTree_plans {jobId : String} {config : PlannerConfig}
    (started : Session.start jobId g config = .ok first) (named : g.Named) (tree : g.JoinTree)
    : (∀ stats, ∃ plan next, first.planAll stats = (.ok plan, next) ∧ next.hasSources = false)
      ∧ ∀ stats : Nat → Statistics,
          ∃ plan next,
            planEach first.topology.arena.activeCount stats (.ofJob jobId) first = (.ok plan, next)
            ∧ next.hasSources = false := by
  obtain ⟨beginning, -⟩ := beginning_of_start started
  refine ⟨?_, ?_⟩
  · intro stats
    rw [planAll, planWithin_eq_planEach]
    exact planEach_ok beginning named tree _ _ _ [] (Nat.le_refl _)
  · intro stats
    exact planEach_ok beginning named tree _ _ _ [] (Nat.le_refl _)

/-- Two sets are joined, and what comes out with a third one. -/
def twoJoins : Graph :=
  .ofLists
    [.scan "scan_a" "db" "a", .scan "scan_b" "db" "b", .scan "scan_c" "db" "c",
      .ofKind "join" .join, (Computation.ofKind "write" .write).setOutput "db" "out"]
    [.scan "a" "scan_a", .scan "b" "scan_b", .scan "c" "scan_c", .join "ab" "a" "b" "join",
      .join "abc" "ab" "c" "join", .apply "out" "abc" "write"]

theorem twoJoins_tree : twoJoins.JoinTree := by
  have steps : ∀ a ∈ twoJoins.atomics, a.kind = .other → a = .apply "out" "abc" "write" := by
    decide
  have joins : ∀ a ∈ twoJoins.atomics, a.kind = .joinSets →
      a = .join "ab" "a" "b" "join" ∨ a = .join "abc" "ab" "c" "join" := by
    decide
  refine ⟨by decide, Graph.readsOnly_of_length (by decide),
    Graph.length_consumersOf_le (by decide), ?_, by decide, ?_⟩
  · intro a member join
    rcases joins a member join with rfl | rfl
    · exact ⟨"a", by decide, .scan (a := .scan "a" "scan_a") (by decide) rfl⟩
    · exact ⟨"c", by decide, .scan (a := .scan "c" "scan_c") (by decide) rfl⟩
  · intro a member other unread
    obtain rfl := steps a member other
    exact ⟨_, rfl, rfl⟩

theorem twoJoins_plans
    : ∃ first,
        Session.start "job" twoJoins .standard = .ok first
        ∧ ∀ stats, ∃ plan next, first.planAll stats = (.ok plan, next) := by
  have starts : (Session.start "job" twoJoins .standard).isOk = true := by decide +kernel
  obtain ⟨first, started⟩ := Except.isOk_iff.mp starts
  refine ⟨first, started, fun stats => ?_⟩
  obtain ⟨plan, next, planned, -⟩ :=
    (joinTree_plans started (Graph.named_ofLists _ _) twoJoins_tree).1 stats
  exact ⟨plan, next, planned⟩

/-- Two sets are joined by a computation that calls itself otherwise than it is filed. -/
def renamedJoin : Graph :=
  .renamed
    (.ofLists
      [.scan "scan_a" "db" "a", .scan "scan_b" "db" "b", .ofKind "join" .join,
        (Computation.ofKind "write" .write).setOutput "db" "out"]
      [.scan "a" "scan_a", .scan "b" "scan_b", .join "ab" "a" "b" "join",
        .apply "out" "ab" "write"])
    "join" "joinX"

theorem renamedJoin_tree : renamedJoin.JoinTree := by
  have steps : ∀ a ∈ renamedJoin.atomics, a.kind = .other → a = .apply "out" "ab" "write" := by
    decide
  have joins : ∀ a ∈ renamedJoin.atomics, a.kind = .joinSets → a = .join "ab" "a" "b" "join" := by
    decide
  refine ⟨by decide, Graph.readsOnly_of_length (by decide),
    Graph.length_consumersOf_le (by decide), ?_, by decide, ?_⟩
  · intro a member join
    obtain rfl := joins a member join
    exact ⟨"a", by decide, .scan (a := .scan "a" "scan_a") (by decide) rfl⟩
  · intro a member other unread
    obtain rfl := steps a member other
    exact ⟨_, rfl, rfl⟩

/-- Of this tree nothing is planned: the strategy of the join is to be noted under the name that its
computation calls itself.
-/
theorem renamedJoin_fails
    : ∃ first next,
        Session.start "job" renamedJoin .standard = .ok first
        ∧ renamedJoin.JoinTree
        ∧ first.planAll .empty = (.error (.unknownComputation "joinX"), next) := by
  have fails : (Session.start "job" renamedJoin .standard).toOption.map
      (fun first => (first.planAll .empty).1) = some (.error (.unknownComputation "joinX")) := by
    decide +kernel
  obtain ⟨first, started, fails⟩ := Except.toOption_map_eq_some_iff.mp fails
  exact ⟨first, _, started, renamedJoin_tree, Prod.ext fails rfl⟩

end Session

end DataflowPlan
