import DataflowPlan.Proofs.Analysis.Alike
import DataflowPlan.Proofs.Session.LiveSources
import Mathlib.Data.List.Rotate

/-! Turns: how the attempts of one increment go round the live sources while all of them are
refused. In each round every source has one turn, and each turn tries the next consumer of its
queue.
-/

namespace DataflowPlan

-----------------------------------------------------------------------------------------------
-- The consumer in front
-----------------------------------------------------------------------------------------------

/-- An analysis depends on the queue of its source only through the consumer in front. -/
theorem View.Alike.analyze {v w : View} (alike : v.Alike w) {source : NodeId}
    (front : (v.node source).active.head? = (w.node source).active.head?)
    : v.analyze source = w.analyze source := by
  funext next
  unfold View.analyze
  rw [alike.sourceSet]
  cases (w.node source).sourceSet with
  | none => simp only [alike.outputOf]
  | some set =>
      simp only [View.passThrough]
      rw [alike.size, alike.follow, alike.outputOf, alike.jobId]
      cases here : (v.node source).active with
      | nil =>
          cases there : (w.node source).active with
          | nil => rfl
          | cons c rest => simp [here, there] at front
      | cons c rest =>
          cases there : (w.node source).active with
          | nil => simp [here, there] at front
          | cons d rest' =>
              have same : c = d := by simpa [here, there] using front
              subst same
              rfl

namespace PhysicalNode

/-- The node with the consumer in front of its queue. -/
def bring (node : PhysicalNode) (consumer : NodeId) : PhysicalNode :=
  { node with active := consumer :: node.active.erase consumer }

/-- The node after that many turns. -/
def turned (node : PhysicalNode) (turns : Nat) : PhysicalNode :=
  { node with active := node.active.rotate turns }

theorem rotate_turned (node : PhysicalNode) (turns : Nat)
    : (node.turned turns).rotate = node.turned (turns + 1) := by
  unfold rotate turned
  simp only
  split
  · next none =>
      have empty : node.active = [] := by simpa using none
      simp [empty]
  · next front rest split =>
      rw [← List.rotate_rotate, split]
      simp

end PhysicalNode

namespace Session

/-- The session in which the source has the consumer in front of its queue. -/
def front (s : Session) (source consumer : NodeId) : Session :=
  { s with
    topology :=
      { s.topology with arena := s.topology.arena.modify source (·.bring consumer) } }

/-- The pipeline from the source to that consumer is refused. -/
def Refuses (s : Session) (stats : Statistics) (source consumer : NodeId) : Prop :=
  (((s.front source consumer).view stats).analyze source s.nextStage).verdict = .refused

-----------------------------------------------------------------------------------------------
-- Picks
-----------------------------------------------------------------------------------------------

variable {s : Session} {stats : Statistics} {skip : List String}

/-- A better source than one that is not skipped is not skipped either. -/
theorem foldl_better_unskipped {sources : List (String × NodeId)} {best e : String × NodeId}
    (unskipped : best.1 ∉ skip)
    (found : sources.foldl (s.better stats skip) (some best) = some e)
    : e.1 ∉ skip := by
  induction sources generalizing best with
  | nil =>
      obtain rfl := Option.some.inj found
      exact unskipped
  | cons head rest ih =>
      rw [List.foldl_cons] at found
      simp only [better] at found
      split at found
      · next before =>
          refine ih ?_ found
          intro member
          simp [Rank.before, rank, unskipped, member] at before
      · exact ih unskipped found

/-- A source that is not skipped comes before those that are. -/
theorem foldl_better_unskipped_of_mem {sources : List (String × NodeId)} {best e : String × NodeId}
    (open' : ∃ other ∈ sources, other.1 ∉ skip)
    (found : sources.foldl (s.better stats skip) (some best) = some e)
    : e.1 ∉ skip := by
  induction sources generalizing best with
  | nil => simp at open'
  | cons head rest ih =>
      by_cases skipped : best.1 ∈ skip
      · rw [List.foldl_cons] at found
        simp only [better] at found
        by_cases headOpen : head.1 ∈ skip
        · obtain ⟨other, member, unskipped⟩ := open'
          have later : ∃ other ∈ rest, other.1 ∉ skip := by
            rcases List.mem_cons.mp member with rfl | later
            · exact absurd headOpen unskipped
            · exact ⟨other, later, unskipped⟩
          split at found
          · exact ih later found
          · exact ih later found
        · have before : (s.rank stats skip head.1 head.2).before
              (s.rank stats skip best.1 best.2) = true := by
            simp [Rank.before, rank, headOpen, skipped]
          rw [if_pos before] at found
          exact foldl_better_unskipped headOpen found
      · exact foldl_better_unskipped skipped found

/-- No source is picked again while another one is still to be tried. -/
theorem unskipped_of_pick {e : String × NodeId} (picked : s.pick stats skip = some e)
    (open' : ∃ other ∈ s.liveSources, other.1 ∉ skip)
    : e.1 ∉ skip := by
  rw [pick] at picked
  cases sources : s.liveSources with
  | nil => simp [sources] at open'
  | cons head rest =>
      rw [sources, List.foldl_cons] at picked
      simp only [better] at picked
      by_cases headOpen : head.1 ∈ skip
      · refine foldl_better_unskipped_of_mem ?_ picked
        obtain ⟨other, member, unskipped⟩ := open'
        rw [sources] at member
        rcases List.mem_cons.mp member with rfl | later
        · exact absurd headOpen unskipped
        · exact ⟨other, later, unskipped⟩
      · exact foldl_better_unskipped headOpen picked

theorem liveKeys_nodup (s : Session) : s.liveKeys.Nodup := by
  have ascending : s.liveSources.Pairwise fun a b => a.1 < b.1 := s.sources.ascending.filter _
  rw [liveKeys, List.Nodup, List.pairwise_map]
  refine ascending.imp ?_
  intro a b below same
  rw [same] at below
  exact String.lt_irrefl _ below

theorem liveSources_nodup (s : Session) : s.liveSources.Nodup :=
  s.liveKeys_nodup.of_map Prod.fst

theorem liveSource_eq {e f : String × NodeId} (left : e ∈ s.liveSources)
    (right : f ∈ s.liveSources) (same : e.1 = f.1)
    : e = f :=
  List.inj_on_of_nodup_map s.liveKeys_nodup left right same

-----------------------------------------------------------------------------------------------
-- Turns
-----------------------------------------------------------------------------------------------

/-- Where the refused attempts of an increment lead: the sources tried so far, those to skip in the
next attempt, and the session that makes it.
-/
structure Turns where
  tried : List (String × NodeId)
  skip : List String
  session : Session

/-- One more turn, of the source that is picked next, which is refused. -/
def Turns.next (stats : Statistics) (t : Turns) : Turns :=
  match t.session.pick stats t.skip with
  | some (key, id) =>
    ⟨t.tried ++ [(key, id)], (t.session.penalize key id).nextSkip (key :: t.skip),
      t.session.penalize key id⟩
  | none => t

/-- The turns of an increment if all its attempts are refused. -/
def turnsAfter (s : Session) (stats : Statistics) : Nat → Turns
  | 0 => ⟨[], [], s⟩
  | count + 1 => (s.turnsAfter stats count).next stats

/-- The session differs from the one that the turns began in by queues and penalties alone: each
queue has moved on by the turns of its node.
-/
structure Turned (s : Session) (t : Turns) : Prop where
  live : ∀ e ∈ t.tried, e ∈ s.liveSources
  sources : t.session.sources = s.sources
  jobId : t.session.jobId = s.jobId
  config : t.session.config = s.config
  nextStage : t.session.nextStage = s.nextStage
  graph : t.session.topology.graph = s.topology.graph
  size : t.session.topology.arena.size = s.topology.arena.size
  node
    : ∀ p, t.session.node p = (s.node p).turned ((t.tried.map Prod.snd).count p)

theorem Turned.liveSources {t : Turns} (turned : s.Turned t)
    : t.session.liveSources = s.liveSources := by
  unfold Session.liveSources
  rw [turned.sources]
  refine List.filter_congr fun e _ => ?_
  rw [Bool.eq_iff_iff, isLive_iff, isLive_iff, turned.node]
  simp [PhysicalNode.turned]

theorem turned_after (s : Session) (stats : Statistics) (count : Nat)
    : s.Turned (s.turnsAfter stats count) := by
  induction count with
  | zero =>
      refine ⟨by simp [turnsAfter], rfl, rfl, rfl, rfl, rfl, rfl, ?_⟩
      intro p
      simp [turnsAfter, PhysicalNode.turned]
  | succ count ih =>
      rw [turnsAfter, Turns.next]
      cases picked : (s.turnsAfter stats count).session.pick stats
          (s.turnsAfter stats count).skip with
      | none => exact ih
      | some e =>
          obtain ⟨key, id⟩ := e
          refine ⟨?_, ih.sources, ih.jobId, ih.config, ih.nextStage, ih.graph, ?_, ?_⟩
          · intro e member
            rcases List.mem_append.mp member with before | now
            · exact ih.live e before
            · rw [List.mem_singleton.mp now, ← ih.liveSources]
              exact mem_of_pick picked
          · exact (Arena.frame_rotate _ id).size.trans ih.size
          · intro p
            rw [node_penalize, List.map_append, List.count_append]
            split
            · next same =>
                subst same
                rw [ih.node, PhysicalNode.rotate_turned]
                simp
            · next other =>
                have differs : ¬ id = p := fun same => other same.symm
                rw [ih.node]
                simp [differs]

-----------------------------------------------------------------------------------------------
-- Rounds
-----------------------------------------------------------------------------------------------

/-- The turns so far are some whole rounds, and one more turn for each source that is skipped. -/
structure Fair (s : Session) (t : Turns) (round : Nat) : Prop where
  unique : t.skip.Nodup
  skipped : ∀ key ∈ t.skip, key ∈ s.liveKeys
  unfinished : t.skip.length < s.liveSources.length
  total : t.tried.length = round * s.liveSources.length + t.skip.length
  each : ∀ e ∈ s.liveSources, t.tried.count e = round + if e.1 ∈ t.skip then 1 else 0

theorem Fair.exists_open {t : Turns} {round : Nat} (fair : s.Fair t round)
    : ∃ e ∈ s.liveSources, e.1 ∉ t.skip := by
  by_contra none
  have covered : s.liveKeys ⊆ t.skip := by
    intro key member
    obtain ⟨e, live, rfl⟩ := List.mem_map.mp member
    by_contra fresh
    exact none ⟨e, live, fresh⟩
  have bound := s.liveKeys_nodup.length_le_of_subset covered
  have unfinished := fair.unfinished
  rw [liveKeys, List.length_map] at bound
  omega

theorem Fair.share {t : Turns} {round : Nat} (fair : s.Fair t round)
    (some : 0 < s.liveSources.length)
    : t.tried.length / s.liveSources.length = round := by
  rw [fair.total, Nat.add_comm, Nat.add_mul_div_right _ _ some,
    Nat.div_eq_of_lt fair.unfinished, Nat.zero_add]

/-- After the turn each source had one in every full round, and one more if it is skipped now. -/
theorem Fair.count_turn {t : Turns} {round : Nat} (fair : s.Fair t round) {e : String × NodeId}
    (live : e ∈ s.liveSources) (open' : e.1 ∉ t.skip) {f : String × NodeId}
    (member : f ∈ s.liveSources)
    : (t.tried ++ [e]).count f = round + if f.1 ∈ e.1 :: t.skip then 1 else 0 := by
  rw [List.count_append, fair.each f member, List.count_singleton]
  by_cases itself : e = f
  · subst itself
    simp [open']
  · have other : ¬ f.1 = e.1 := fun keys => itself (liveSource_eq live member keys.symm)
    simp [itself, other]

/-- A turn of a source that was not skipped adds to its round, or completes it. -/
theorem Fair.turn {t : Turns} {round : Nat} (fair : s.Fair t round) {e : String × NodeId}
    (live : e ∈ s.liveSources) (open' : e.1 ∉ t.skip) (m : Session)
    (same : m.liveSources = s.liveSources)
    : ∃ round', s.Fair ⟨t.tried ++ [e], m.nextSkip (e.1 :: t.skip), m⟩ round' := by
  have sameKeys : m.liveKeys = s.liveKeys := congrArg (List.map Prod.fst) same
  have within : ∀ key ∈ e.1 :: t.skip, key ∈ s.liveKeys := by
    intro key member
    rcases List.mem_cons.mp member with rfl | before
    · exact List.mem_map_of_mem live
    · exact fair.skipped key before
  have unique : (e.1 :: t.skip).Nodup := List.nodup_cons.mpr ⟨open', fair.unique⟩
  have length : s.liveKeys.length = s.liveSources.length := by simp [liveKeys]
  by_cases covered : ∀ key ∈ s.liveKeys, key ∈ e.1 :: t.skip
  · have whole : (e.1 :: t.skip).length = s.liveSources.length := by
      have upper := unique.length_le_of_subset within
      have lower := s.liveKeys_nodup.length_le_of_subset covered
      omega
    have cleared : m.nextSkip (e.1 :: t.skip) = [] := by
      rw [nextSkip, sameKeys, if_pos]
      simpa using covered
    refine ⟨round + 1, ?_⟩
    rw [cleared]
    refine ⟨List.nodup_nil, by simp, ?_, ?_, ?_⟩
    · simp only [List.length_cons] at whole
      simp only [List.length_nil]
      omega
    · simp only [List.length_append, List.length_nil, List.length_cons] at whole ⊢
      rw [fair.total, Nat.add_mul]
      omega
    · intro f member
      rw [fair.count_turn live open' member, if_pos (covered f.1 (List.mem_map_of_mem member))]
      simp
  · have kept : m.nextSkip (e.1 :: t.skip) = e.1 :: t.skip := by
      rw [nextSkip, sameKeys, if_neg]
      simpa using covered
    refine ⟨round, ?_⟩
    rw [kept]
    refine ⟨unique, within, ?_, ?_, fun f member => fair.count_turn live open' member⟩
    · by_contra full
      refine covered ?_
      have enough : s.liveKeys.length ≤ (e.1 :: t.skip).length := by
        rw [length]
        exact Nat.le_of_not_lt full
      have perm := (List.subperm_of_subset unique within).perm_of_length_le enough
      exact fun key member => perm.mem_iff.mpr member
    · simp only [List.length_append, List.length_nil, List.length_cons]
      rw [fair.total]
      omega

/-- With a live source every turn is one, and the turns are fair.
Witness: induction on the turns. A source is picked that is not skipped, and the skipped ones start
afresh when they are all.
-/
theorem fair_after (busy : s.hasSources = true) (stats : Statistics) (count : Nat)
    : (s.turnsAfter stats count).tried.length = count
      ∧ ∃ round, s.Fair (s.turnsAfter stats count) round := by
  induction count with
  | zero =>
      obtain ⟨source, live⟩ := hasSources_iff.mp busy
      refine ⟨rfl, 0, List.nodup_nil, by simp [turnsAfter], ?_, by simp [turnsAfter],
        by simp [turnsAfter]⟩
      exact List.length_pos_of_mem live
  | succ count ih =>
      obtain ⟨length, round, fair⟩ := ih
      have turned := turned_after s stats count
      have again : (s.turnsAfter stats count).session.hasSources = true := by
        obtain ⟨source, live⟩ := hasSources_iff.mp busy
        exact hasSources_iff.mpr ⟨source, turned.liveSources ▸ live⟩
      rw [turnsAfter, Turns.next]
      cases picked : (s.turnsAfter stats count).session.pick stats
          (s.turnsAfter stats count).skip with
      | none =>
          rw [pick_eq_none_iff, again] at picked
          simp at picked
      | some e =>
          obtain ⟨key, id⟩ := e
          have live : (key, id) ∈ s.liveSources := turned.liveSources ▸ mem_of_pick picked
          have open' := unskipped_of_pick picked (turned.liveSources.symm ▸ fair.exists_open)
          refine ⟨by simp [length], ?_⟩
          refine fair.turn live open' _ ?_
          have after := (turned_after s stats (count + 1)).liveSources
          rw [turnsAfter, Turns.next, picked] at after
          exact after

/-- After that many turns every source had an even share of them, or one more. -/
theorem count_after (busy : s.hasSources = true) (stats : Statistics) (count : Nat)
    {e : String × NodeId} (live : e ∈ s.liveSources)
    : count / s.liveSources.length ≤ (s.turnsAfter stats count).tried.count e
      ∧ (s.turnsAfter stats count).tried.count e ≤ count / s.liveSources.length + 1 := by
  obtain ⟨length, round, fair⟩ := fair_after busy stats count
  have share := fair.share (List.length_pos_of_mem live)
  rw [length] at share
  rw [share, fair.each e live]
  split <;> omega

end Session

end DataflowPlan
