import DataflowPlan.Proofs.Analysis.Failure
import DataflowPlan.Proofs.Session.Turns

/-! Stalls. An increment stalls when all its attempts are refused, and these are the turns of its
sources: each source has about the same number of turns, however many consumers are left in its
queue. So a stall says nothing of the consumers behind the turns of their source.
-/

namespace DataflowPlan.Session

variable {s : Session} {stats : Statistics}

-----------------------------------------------------------------------------------------------
-- Refused turns
-----------------------------------------------------------------------------------------------

/-- The attempt that comes after that many turns is refused. -/
def RefusesTurn (s : Session) (stats : Statistics) (count : Nat) : Prop :=
  ∃ key next,
    (s.turnsAfter stats count).session.attempt stats (s.turnsAfter stats count).skip
      = (.refused key, next)

theorem turnsAfter_succ {count : Nat} {key : String} {next : Session}
    (refused
      : (s.turnsAfter stats count).session.attempt stats (s.turnsAfter stats count).skip
          = (.refused key, next))
    : (s.turnsAfter stats (count + 1)).session = next
      ∧ (s.turnsAfter stats (count + 1)).skip
        = next.nextSkip (key :: (s.turnsAfter stats count).skip) := by
  obtain ⟨source, picked, -, rfl⟩ := refused_of_attempt refused
  rw [turnsAfter, Turns.next, picked]
  exact ⟨rfl, rfl⟩

/-- The attempts of an increment are refused turns. -/
theorem Tries.turns {count : Nat} {skip : List String} {m : Session}
    (tries : s.Tries stats count skip m)
    : (∀ i < count, s.RefusesTurn stats i)
      ∧ m = (s.turnsAfter stats count).session
      ∧ skip = (s.turnsAfter stats count).skip := by
  induction tries with
  | first => exact ⟨by simp, rfl, rfl⟩
  | again earlier left refused ih =>
      obtain ⟨before, rfl, rfl⟩ := ih
      obtain ⟨session, skip⟩ := turnsAfter_succ refused
      refine ⟨?_, session.symm, skip.symm⟩
      intro i below
      rcases Nat.lt_succ_iff_lt_or_eq.mp below with earlier | rfl
      · exact before i earlier
      · exact ⟨_, _, refused⟩

/-- Refused turns are the attempts of an increment, up to its budget. -/
theorem tries_of_turns {count : Nat} (refused : ∀ i < count, s.RefusesTurn stats i)
    (budget : count ≤ s.budget)
    : s.Tries stats count (s.turnsAfter stats count).skip
        (s.turnsAfter stats count).session := by
  induction count with
  | zero => exact .first
  | succ count ih =>
      obtain ⟨key, next, last⟩ := refused count (by omega)
      obtain ⟨session, skip⟩ := turnsAfter_succ last
      have earlier := ih (fun i below => refused i (by omega)) (by omega)
      rw [session, skip]
      exact .again earlier budget last

/-- An attempt does not fail with a stall. -/
theorem unstalled_of_attempt {skip : List String} {error : Error} {next : Session}
    (failed : s.attempt stats skip = (.failed error, next))
    : ¬ error.IsStall := by
  unfold attempt at failed
  cases picked : s.pick stats skip with
  | none => simp [picked] at failed
  | some choice =>
      simp only [picked] at failed
      cases verdict : ((s.view stats).analyze choice.2 s.nextStage).verdict with
      | planned segment => simp [verdict] at failed
      | refused => simp [verdict] at failed
      | failed found =>
          simp only [verdict, Prod.mk.injEq, Attempt.failed.injEq] at failed
          obtain ⟨rfl, -⟩ := failed
          exact View.analyze_unstalled _ _ found verdict

/-- An increment stalls exactly if there is a source and each of its turns is refused, one more than
the budget has.
-/
theorem stalls_iff_turns
    : (∃ error : Error, error.IsStall ∧ (s.planIncrement stats).1 = .error error)
      ↔ s.hasSources = true ∧ ∀ i < s.prune.budget + 1, s.prune.RefusesTurn stats i := by
  have live : s.prune.hasSources = s.hasSources := hasSources_prune s
  constructor
  · rintro ⟨error, stall, outcome⟩
    have ends := s.planIncrement_comesTo stats
    generalize s.planIncrement stats = result at ends outcome
    cases ends with
    | idle tries none => simp at outcome
    | planned tries planned => simp at outcome
    | failed tries failed =>
        obtain rfl := Except.error.inj outcome
        exact absurd stall (unstalled_of_attempt failed)
    | stalled tries refused =>
        obtain ⟨before, rfl, rfl⟩ := tries.turns
        refine ⟨?_, ?_⟩
        · obtain ⟨source, picked, -, -⟩ := refused_of_attempt refused
          have there := mem_of_pick picked
          rw [(turned_after s.prune stats _).liveSources] at there
          exact live ▸ hasSources_iff.mpr ⟨_, there⟩
        · intro i below
          rcases Nat.lt_succ_iff_lt_or_eq.mp below with earlier | rfl
          · exact before i earlier
          · exact ⟨_, _, refused⟩
  · rintro ⟨busy, refused⟩
    have tries := tries_of_turns (fun i below => refused i (by omega)) (Nat.le_refl s.prune.budget)
    obtain ⟨key, next, last⟩ := refused s.prune.budget (by omega)
    refine ⟨.stalled (s.prune.budget + 1) next.sources.keys, trivial, ?_⟩
    have again := hasSources_of_attempt last (by simp)
    rw [planIncrement, tries.retry_eq, Nat.sub_self, retry.eq_def]
    simp [again, last]

-----------------------------------------------------------------------------------------------
-- Turns of one consumer each
-----------------------------------------------------------------------------------------------

/-- No two keys stand for one live source. -/
theorem Keyed.liveSource_eq_of_node (keyed : s.Keyed) {e f : String × NodeId}
    (left : e ∈ s.liveSources) (right : f ∈ s.liveSources) (same : e.2 = f.2)
    : e = f := by
  obtain ⟨here, -⟩ := mem_liveSources_iff.mp left
  obtain ⟨there, -⟩ := mem_liveSources_iff.mp right
  obtain ⟨set, source, key⟩ := keyed.entries _ _ here
  obtain ⟨set', source', key'⟩ := keyed.entries _ _ there
  rw [← same, source] at source'
  obtain rfl := Option.some.inj source'
  exact Prod.ext (key.symm.trans key') same

/-- The turns of a live source are those of its node. -/
theorem Keyed.count_node (keyed : s.Keyed) {tried : List (String × NodeId)}
    (live : ∀ e ∈ tried, e ∈ s.liveSources) {e : String × NodeId} (member : e ∈ s.liveSources)
    : (tried.map Prod.snd).count e.2 = tried.count e := by
  rw [List.count_eq_countP, List.countP_map, List.count_eq_countP]
  refine List.countP_congr fun f there => ?_
  simp only [Function.comp, beq_iff_eq]
  constructor
  · intro same
    exact keyed.liveSource_eq_of_node (live f there) member same
  · rintro rfl
    rfl

theorem has_of_active {id : NodeId} (active : (s.node id).active ≠ [])
    : s.topology.arena.Has id := by
  by_contra outside
  rw [node, Arena.node_of_not_has outside] at active
  exact active rfl

/-- The two nodes differ at most in how a queue of several consumers is ordered. -/
structure Reordered (a b : PhysicalNode) : Prop where
  atomic : a.atomic = b.atomic
  kind : a.kind = b.kind
  sourceSet : a.sourceSet = b.sourceSet
  active : a.active = b.active ∨ 2 ≤ a.active.length ∧ 2 ≤ b.active.length

theorem reordered_turned (node : PhysicalNode) (turns : Nat)
    : Reordered (node.turned turns) node := by
  refine ⟨rfl, rfl, rfl, ?_⟩
  unfold PhysicalNode.turned
  match node.active with
  | [] => simp
  | [consumer] => simp
  | _ :: _ :: _ => exact .inr ⟨by simp, by simp⟩

theorem reordered_bring {node : PhysicalNode} {consumer : NodeId}
    (member : consumer ∈ node.active) (turns : Nat)
    : Reordered (node.turned turns) (node.bring consumer) := by
  refine ⟨rfl, rfl, rfl, ?_⟩
  unfold PhysicalNode.turned PhysicalNode.bring
  match node.active, member with
  | [only], member =>
      obtain rfl := List.mem_singleton.mp member
      simp
  | first :: second :: rest, member =>
      refine .inr ⟨by simp, ?_⟩
      simp [List.length_erase_of_mem member]

/-- The turn of a source is an analysis of its next consumer: nothing else matters of the turns
before it.
-/
theorem Turned.analyze {t : Turns} (turned : s.Turned t) (keyed : s.Keyed)
    {e : String × NodeId} (member : e ∈ s.liveSources) {consumer : NodeId}
    (next : ((s.node e.2).active.rotate (t.tried.count e)).head? = some consumer)
    : (t.session.view stats).analyze e.2 t.session.nextStage
        = ((s.front e.2 consumer).view stats).analyze e.2 s.nextStage := by
  obtain ⟨-, active⟩ := mem_liveSources_iff.mp member
  have among : consumer ∈ (s.node e.2).active :=
    List.mem_rotate.mp (List.mem_of_mem_head? next)
  have here : (s.front e.2 consumer).node e.2 = (s.node e.2).bring consumer :=
    Arena.node_modify_self _ (has_of_active active)
  have same : ∀ p, Reordered (t.session.node p) ((s.front e.2 consumer).node p) := by
    intro p
    rw [turned.node]
    by_cases itself : p = e.2
    · rw [itself, here]
      exact reordered_bring among _
    · rw [show (s.front e.2 consumer).node p = s.node p from
        Arena.node_modify_other _ _ itself]
      exact reordered_turned _ _
  have alike : (t.session.view stats).Alike ((s.front e.2 consumer).view stats) :=
    { jobId := turned.jobId
      config := turned.config
      stats := rfl
      graph := turned.graph
      size := turned.size.trans (Arena.size_modify _ _ _).symm
      atomic := fun p => (same p).atomic
      kind := fun p => (same p).kind
      sourceSet := fun p => (same p).sourceSet
      active := fun p => (same p).active }
  rw [turned.nextStage]
  refine congrFun (alike.analyze ?_) s.nextStage
  rw [show (t.session.view stats).node e.2 = _ from turned.node e.2,
    show ((s.front e.2 consumer).view stats).node e.2 = _ from here]
  simp only [PhysicalNode.turned, PhysicalNode.bring, List.head?_cons]
  rw [keyed.count_node turned.live member]
  exact next

/-- What holds of the first elements and of the one that comes to the front after as many rotations
holds of one element more.
-/
theorem forall_take_succ {α : Type} {P : α → Prop} (items : List α) (count : Nat)
    : (∀ a ∈ items.take (count + 1), P a)
      ↔ (∀ a ∈ items.take count, P a) ∧ ∀ a, (items.rotate count).head? = some a → P a := by
  by_cases within : count < items.length
  · rw [List.head?_rotate within, List.take_add_one]
    simp only [List.mem_append, Option.mem_toList, or_imp, forall_and]
  · rw [List.take_of_length_le (by omega), List.take_of_length_le (by omega)]
    refine ⟨fun all => ⟨all, ?_⟩, fun both => both.1⟩
    intro a front
    exact all a (List.mem_rotate.mp (List.mem_of_mem_head? front))

/-- A turn is refused exactly if the next consumer of the source in turn is. -/
theorem refusesTurn_iff (keyed : s.Keyed) {count : Nat} {e : String × NodeId}
    (picked
      : (s.turnsAfter stats count).session.pick stats (s.turnsAfter stats count).skip = some e)
    : s.RefusesTurn stats count
        ↔ ∀ c,
            ((s.node e.2).active.rotate ((s.turnsAfter stats count).tried.count e)).head? = some c →
              s.Refuses stats e.2 c := by
  have turned := turned_after s stats count
  have member : e ∈ s.liveSources := turned.liveSources ▸ mem_of_pick picked
  constructor
  · rintro ⟨key, next, refused⟩ c front
    obtain ⟨source, again, verdict, -⟩ := refused_of_attempt refused
    obtain rfl := Option.some.inj (picked.symm.trans again)
    rw [Refuses, ← turned.analyze keyed member front]
    exact verdict
  · intro refuses
    obtain ⟨-, active⟩ := mem_liveSources_iff.mp member
    cases front : ((s.node e.2).active.rotate ((s.turnsAfter stats count).tried.count e)).head? with
    | none => simp [active] at front
    | some c =>
        have verdict := refuses c front
        rw [Refuses, ← turned.analyze keyed member front] at verdict
        refine ⟨e.1, (s.turnsAfter stats count).session.penalize e.1 e.2, ?_⟩
        simp only [attempt, picked, verdict]

/-- All turns so far are refused exactly if the first consumers of each live source are, as many as
the source had turns.
Witness: induction on the turns; each one is of the next consumer of one source.
-/
theorem refusesTurns_iff (keyed : s.Keyed) (busy : s.hasSources = true) (count : Nat)
    : (∀ i < count, s.RefusesTurn stats i)
      ↔ ∀ e ∈ s.liveSources,
          ∀ c ∈ (s.node e.2).active.take ((s.turnsAfter stats count).tried.count e),
            s.Refuses stats e.2 c := by
  induction count with
  | zero => simp [turnsAfter]
  | succ count ih =>
      have turned := turned_after s stats count
      cases picked : (s.turnsAfter stats count).session.pick stats
          (s.turnsAfter stats count).skip with
      | none =>
          obtain ⟨source, live⟩ := hasSources_iff.mp busy
          rw [pick_eq_none_iff, hasSources_iff.mpr ⟨source, turned.liveSources ▸ live⟩] at picked
          simp at picked
      | some e =>
          have member : e ∈ s.liveSources := turned.liveSources ▸ mem_of_pick picked
          have tried : (s.turnsAfter stats (count + 1)).tried
              = (s.turnsAfter stats count).tried ++ [e] := by
            rw [turnsAfter, Turns.next, picked]
          have own : (s.turnsAfter stats (count + 1)).tried.count e
              = (s.turnsAfter stats count).tried.count e + 1 := by
            simp [tried]
          have others : ∀ f, f ≠ e → (s.turnsAfter stats (count + 1)).tried.count f
              = (s.turnsAfter stats count).tried.count f := by
            intro f other
            simp [tried, other.symm]
          rw [Nat.forall_lt_succ_right, ih, refusesTurn_iff keyed picked]
          constructor
          · rintro ⟨before, last⟩ f live
            by_cases same : f = e
            · subst same
              rw [own, forall_take_succ]
              exact ⟨before f live, last⟩
            · rw [others f same]
              exact before f live
          · intro all
            have mine := all e member
            rw [own, forall_take_succ] at mine
            refine ⟨?_, mine.2⟩
            intro f live
            by_cases same : f = e
            · subst same
              exact mine.1
            · rw [← others f same]
              exact all f live

-----------------------------------------------------------------------------------------------
-- Stalls
-----------------------------------------------------------------------------------------------

/-- The increment fails with a stall. -/
def Stalls (s : Session) (stats : Statistics) : Prop :=
  ∃ error : Error, error.IsStall ∧ (s.planIncrement stats).1 = .error error

/-- The turns of the source among the refusals that end an increment. -/
def turns (s : Session) (stats : Statistics) (source : String × NodeId) : Nat :=
  (s.prune.turnsAfter stats (s.prune.budget + 1)).tried.count source

/-- The turns that every source has at least. -/
def evenShare (s : Session) : Nat :=
  (s.prune.budget + 1) / s.liveSources.length

/-- Every consumer of a live source is refused that the source comes to in its turns. -/
def TurnsRefused (s : Session) (stats : Statistics) : Prop :=
  ∀ e ∈ s.liveSources,
    ∀ c ∈ (s.node e.2).active.take (s.turns stats e), s.Refuses stats e.2 c

/-- Every consumer of a live source is refused. -/
def AllRefused (s : Session) (stats : Statistics) : Prop :=
  ∀ e ∈ s.liveSources, ∀ c ∈ (s.node e.2).active, s.Refuses stats e.2 c

/-- A stall means that nothing can be planned. -/
def StallsRightly (s : Session) (stats : Statistics) : Prop :=
  s.Stalls stats → s.AllRefused stats

theorem liveSources_prune (s : Session) : s.prune.liveSources = s.liveSources := by
  simp only [liveSources, prune, Table.filter, List.filter_filter]
  refine List.filter_congr fun e _ => ?_
  exact Bool.and_self _

theorem Keyed.stalls_iff (keyed : s.Keyed)
    : s.Stalls stats ↔ s.hasSources = true ∧ s.TurnsRefused stats := by
  rw [Stalls, stalls_iff_turns]
  refine and_congr_right fun busy => ?_
  rw [refusesTurns_iff keyed.prune ((hasSources_prune s).trans busy), liveSources_prune]
  rfl

theorem turns_bounds (stats : Statistics) {e : String × NodeId} (live : e ∈ s.liveSources)
    : s.evenShare ≤ s.turns stats e ∧ s.turns stats e ≤ s.evenShare + 1 := by
  have busy : s.prune.hasSources = true :=
    (hasSources_prune s).trans (hasSources_iff.mpr ⟨e, live⟩)
  have bounds := count_after busy stats (s.prune.budget + 1)
    (liveSources_prune s ▸ live)
  rw [liveSources_prune] at bounds
  exact bounds

/-- What stands behind a stall, in every session that a run leads to: the sources have even shares
of the turns, and a stall is wrong exactly if all these turns are refused and a consumer that would
be planned comes later in its queue. It is right if no queue is longer than an even share.
-/
structure StallTerms (s : Session) (stats : Statistics) : Prop where
  stalls : s.Stalls stats ↔ s.hasSources = true ∧ s.TurnsRefused stats
  fair
    : ∀ e ∈ s.liveSources, s.evenShare ≤ s.turns stats e ∧ s.turns stats e ≤ s.evenShare + 1
  wrong
    : ¬ s.StallsRightly stats
        ↔ s.TurnsRefused stats
          ∧ ∃ e ∈ s.liveSources,
              ∃ c ∈ (s.node e.2).active.drop (s.turns stats e), ¬ s.Refuses stats e.2 c
  right
    : (∀ e ∈ s.liveSources, (s.node e.2).active.length ≤ s.evenShare) → s.StallsRightly stats

theorem Keyed.stallTerms (keyed : s.Keyed) (stats : Statistics)
    : s.StallTerms stats := by
  refine ⟨keyed.stalls_iff, fun e live => turns_bounds stats live, ?_, ?_⟩
  · constructor
    · intro wrong
      rw [StallsRightly, keyed.stalls_iff, Classical.not_imp] at wrong
      obtain ⟨⟨-, refused⟩, some⟩ := wrong
      refine ⟨refused, ?_⟩
      simp only [AllRefused, not_forall] at some
      obtain ⟨e, live, c, member, planned⟩ := some
      refine ⟨e, live, c, ?_, planned⟩
      rw [← List.take_append_drop (s.turns stats e) (s.node e.2).active] at member
      rcases List.mem_append.mp member with first | later
      · exact absurd (refused e live c first) planned
      · exact later
    · rintro ⟨refused, e, live, c, later, planned⟩ rightly
      have stalls := keyed.stalls_iff.mpr ⟨hasSources_iff.mpr ⟨e, live⟩, refused⟩
      exact planned (rightly stalls e live c (List.mem_of_mem_drop later))
  · intro short stalls e live c member
    obtain ⟨-, refused⟩ := keyed.stalls_iff.mp stalls
    have whole : (s.node e.2).active.length ≤ s.turns stats e :=
      (short e live).trans (turns_bounds stats live).1
    refine refused e live c ?_
    rw [List.take_of_length_le whole]
    exact member

theorem stallTerms_of_run {jobId : String} {g : Graph} {config : PlannerConfig} {first : Session}
    (started : Session.start jobId g config = .ok first) (named : g.Named)
    (calls : List (Call × Statistics)) (stats : Statistics)
    : (first.run calls).2.StallTerms stats := by
  obtain ⟨beginning, -⟩ := beginning_of_start started
  obtain ⟨-, -, keyed⟩ := beginning.keyed_of_waits named calls .here
  exact keyed.stallTerms stats

/-- The set `db:a` has three consumers. Two of them are joins that lead to joins which wait for the
third one, and so does the only consumer of `db:b`.
-/
def lateConsumer : Graph :=
  .ofLists
    [.scan "scan_s1" "db" "s1", .scan "scan_s2" "db" "s2", .scan "scan_s3" "db" "s3",
      .scan "scan_a" "db" "a", .scan "scan_b" "db" "b", .ofKind "join" .join,
      .ofKind "clean" .selection, (Computation.ofKind "write1" .write).setOutput "db" "o1",
      (Computation.ofKind "write2" .write).setOutput "db" "o2",
      (Computation.ofKind "write3" .write).setOutput "db" "o3"]
    [.scan "s1" "scan_s1", .scan "s2" "scan_s2", .scan "s3" "scan_s3", .scan "a" "scan_a",
      .scan "b" "scan_b", .join "j1" "s1" "a" "join", .join "j2" "s2" "a" "join",
      .join "j3" "s3" "b" "join", .apply "p" "a" "clean", .join "k1" "j1" "p" "join",
      .join "k2" "j2" "p" "join", .join "k3" "j3" "p" "join", .apply "o1" "k1" "write1",
      .apply "o2" "k2" "write2", .apply "o3" "k3" "write3"]

/-- The set `db:a` is costlier to read than `db:b`, so it is the one with fewer turns. -/
def lateStatistics : Statistics :=
  (Statistics.empty.setBytes "db" "a" 5000000).setBytes "db" "b" 1000000

/-- An increment stalls after so many refusals while that consumer of the source would be planned.
-/
def misses (s : Session) (stats : Statistics) (source : String × NodeId) (consumer : NodeId)
    : Option Nat :=
  if source ∈ s.liveSources ∧ consumer ∈ (s.node source.2).active
      ∧ ¬ (((s.front source.2 consumer).view stats).analyze source.2 s.nextStage).verdict
        = .refused then
    match (s.planIncrement stats).1 with
    | .error (.stalled refusals _) => some refusals
    | _ => none
  else none

theorem not_stallsRightly_of_misses {source : String × NodeId} {consumer : NodeId}
    {refusals : Nat} (missed : s.misses stats source consumer = some refusals)
    : ¬ s.StallsRightly stats := by
  intro rightly
  unfold misses at missed
  split at missed
  · next facts =>
      obtain ⟨live, member, planned⟩ := facts
      split at missed
      · next failed => exact planned (rightly ⟨.stalled _ _, trivial, failed⟩ _ live _ member)
      · simp at missed
  · simp at missed

/-- After three increments each of the two sets has the joins of its consumers built. -/
theorem lateConsumer_stalls
    : ∃ first,
        Session.start "job" lateConsumer .standard = .ok first
        ∧ ¬ (first.run (.replicate 3 (.planIncrement, lateStatistics))).2.StallsRightly
            lateStatistics := by
  have evaluated :
      (Session.start "job" lateConsumer .standard).toOption.map (fun first =>
        (first.run (.replicate 3 (.planIncrement, lateStatistics))).2.misses lateStatistics
          ("db:a", ⟨12⟩) ⟨13⟩)
        = some (some 5) := by
    decide +kernel
  obtain ⟨first, started, evaluated⟩ := Except.toOption_map_eq_some_iff.mp evaluated
  exact ⟨first, started, not_stallsRightly_of_misses evaluated⟩

/-- An increment can stall before a consumer that would be planned. -/
theorem stalls_wrongly
    : ∃ first calls stats,
        Session.start "job" lateConsumer .standard = .ok first
        ∧ ¬ (first.run calls).2.StallsRightly stats := by
  obtain ⟨first, started, wrong⟩ := lateConsumer_stalls
  exact ⟨first, _, _, started, wrong⟩

theorem lateConsumer_turns
    : ∃ first calls stats,
        Session.start "job" lateConsumer .standard = .ok first
        ∧ (first.run calls).2.TurnsRefused stats
        ∧ ∃ e ∈ (first.run calls).2.liveSources,
            ∃ c ∈ ((first.run calls).2.node e.2).active.drop ((first.run calls).2.turns stats e),
              ¬ (first.run calls).2.Refuses stats e.2 c := by
  obtain ⟨first, started, wrong⟩ := lateConsumer_stalls
  exact ⟨first, _, _, started,
    (stallTerms_of_run started (Graph.named_ofLists _ _) _ _).wrong.mp wrong⟩

end DataflowPlan.Session
