import DataflowPlan.Proofs.Session.Stalling

/-! Fair retries. The attempts of one increment go round the live sources, with one attempt from
each of them in every round, and those from one source go round the queue that it had when the
increment began.
-/

namespace DataflowPlan.Session

variable {s : Session} {stats : Statistics}

-----------------------------------------------------------------------------------------------
-- The attempts of an increment
-----------------------------------------------------------------------------------------------

/-- One attempt: the source that is picked, the consumer in front of its queue, and what the
analysis comes to.
-/
structure Trial where
  source : String × NodeId
  consumer : Option NodeId
  analysis : Analysis
deriving DecidableEq

/-- The attempt that the session makes next, if there is a live source. -/
def trial? (s : Session) (stats : Statistics) (skip : List String) : Option Trial :=
  (s.pick stats skip).map fun source =>
    ⟨source, (s.node source.2).active.head?, (s.view stats).analyze source.2 s.nextStage⟩

/-- What an increment comes to, and its attempts in order. -/
structure Log where
  result : Except Error Increment × Session
  trials : List Trial

/-- Attempts until one succeeds, as they are retried, with every one of them kept. -/
def retryLog (stats : Statistics) : (left refusals : Nat) → List String → Session → Log
  | left, refusals, skip, s =>
    if !s.hasSources then ⟨(.ok .empty, s), []⟩
    else
      let trial := (s.trial? stats skip).toList
      match s.attempt stats skip with
      | (.planned increment, s) => ⟨(.ok increment, s), trial⟩
      | (.idle, s) => ⟨(.ok .empty, s), trial⟩
      | (.failed error, s) => ⟨(.error error, s), trial⟩
      | (.refused key, s) =>
        match left with
        | 0 => ⟨(.error (.stalled (refusals + 1) s.sources.keys), s), trial⟩
        | left + 1 =>
          let later := retryLog stats left (refusals + 1) (s.nextSkip (key :: skip)) s
          ⟨later.result, trial ++ later.trials⟩

/-- The attempts of the next increment. -/
def log (s : Session) (stats : Statistics) : Log :=
  retryLog stats s.prune.budget 0 [] s.prune

/-- The attempt that comes after that many turns. -/
def trialAfter (s : Session) (stats : Statistics) (count : Nat) : Option Trial :=
  (s.turnsAfter stats count).session.trial? stats (s.turnsAfter stats count).skip

theorem exists_trialAfter {count : Nat}
    (busy : (s.turnsAfter stats count).session.hasSources = true)
    : ∃ trial, s.trialAfter stats count = some trial := by
  cases picked : (s.turnsAfter stats count).session.pick stats
      (s.turnsAfter stats count).skip with
  | none =>
      rw [pick_eq_none_iff, busy] at picked
      simp at picked
  | some source => exact ⟨_, by rw [trialAfter, trial?, picked, Option.map_some]⟩

/-- The log belongs to retrying after so many turns: it comes to the same, its attempts are those of
the turns that follow, all of them but the last are refused, and there is one if some source is
live.
-/
structure Log.Tells (log : Log) (s : Session) (stats : Statistics) (count : Nat)
    (result : Except Error Increment × Session) : Prop where
  result : log.result = result
  trials : ∀ i trial, log.trials[i]? = some trial → s.trialAfter stats (count + i) = some trial
  refused : ∀ i, i + 1 < log.trials.length → s.RefusesTurn stats (count + i)
  busy : (s.turnsAfter stats count).session.hasSources = true → log.trials ≠ []

/-- The log of one attempt alone. -/
theorem Log.tells_one {count : Nat} {outcome : Except Error Increment} {next : Session}
    (busy : (s.turnsAfter stats count).session.hasSources = true)
    : Log.Tells ⟨(outcome, next), (s.trialAfter stats count).toList⟩ s stats count
        (outcome, next) := by
  obtain ⟨trial, now⟩ := exists_trialAfter busy
  rw [now, Option.toList_some]
  refine ⟨rfl, ?_, by simp, by simp⟩
  intro i found only
  rw [List.getElem?_singleton] at only
  split at only
  · next here =>
      rw [here, Nat.add_zero, now]
      exact only
  · simp at only

/-- The log of a refused attempt goes on with that of the next turn. -/
theorem Log.Tells.after_refusal {later : Log} {count : Nat} {key : String} {next : Session}
    {result : Except Error Increment × Session}
    (tells : later.Tells s stats (count + 1) result)
    (refused
      : (s.turnsAfter stats count).session.attempt stats (s.turnsAfter stats count).skip
          = (.refused key, next))
    : Log.Tells ⟨later.result, (s.trialAfter stats count).toList ++ later.trials⟩ s stats count
        result := by
  obtain ⟨trial, now⟩ := exists_trialAfter (hasSources_of_attempt refused (by simp))
  rw [now, Option.toList_some, List.singleton_append]
  refine ⟨tells.result, ?_, ?_, by simp⟩
  · intro i found there
    cases i with
    | zero => exact now.trans there
    | succ i =>
        rw [← Nat.add_assoc, Nat.add_right_comm]
        exact tells.trials i found there
  · intro i within
    cases i with
    | zero => exact ⟨key, next, refused⟩
    | succ i =>
        rw [← Nat.add_assoc, Nat.add_right_comm]
        exact tells.refused i (Nat.lt_of_succ_lt_succ within)

/-- Retrying makes the attempts of its log, and these are turns.
Witness: induction on the refusals that are left; each refusal is one turn more.
-/
theorem retryLog_tells (s : Session) (stats : Statistics) (left refusals count : Nat)
    : (retryLog stats left refusals (s.turnsAfter stats count).skip
          (s.turnsAfter stats count).session).Tells s stats count
        (retry stats left refusals (s.turnsAfter stats count).skip
          (s.turnsAfter stats count).session) := by
  induction left generalizing refusals count with
  | zero =>
      rw [retry.eq_def, retryLog.eq_def]
      dsimp only
      cases busy : (s.turnsAfter stats count).session.hasSources with
      | false => exact ⟨rfl, by simp, by simp, by simp [busy]⟩
      | true =>
          rcases (s.turnsAfter stats count).session.attempt stats
            (s.turnsAfter stats count).skip with ⟨attempt, next⟩
          cases attempt <;> exact Log.tells_one busy
  | succ left ih =>
      rw [retry.eq_def, retryLog.eq_def]
      dsimp only
      cases busy : (s.turnsAfter stats count).session.hasSources with
      | false => exact ⟨rfl, by simp, by simp, by simp [busy]⟩
      | true =>
          rcases outcome : (s.turnsAfter stats count).session.attempt stats
            (s.turnsAfter stats count).skip with ⟨attempt, next⟩
          cases attempt with
          | planned increment => exact Log.tells_one busy
          | refused key =>
              obtain ⟨session, skip⟩ := turnsAfter_succ outcome
              have later := ih (refusals + 1) (count + 1)
              rw [session, skip] at later
              exact later.after_refusal outcome
          | idle => exact Log.tells_one busy
          | failed error => exact Log.tells_one busy

theorem log_tells (s : Session) (stats : Statistics)
    : (s.log stats).Tells s.prune stats 0 (s.planIncrement stats) :=
  retryLog_tells s.prune stats _ 0 0

/-- An attempt is a turn of its source. -/
theorem tried_succ {count : Nat} {trial : Trial}
    (after : s.trialAfter stats count = some trial)
    : (s.turnsAfter stats (count + 1)).tried
        = (s.turnsAfter stats count).tried ++ [trial.source] := by
  obtain ⟨source, picked, rfl⟩ := Option.map_eq_some_iff.mp after
  rw [turnsAfter, Turns.next, picked]

/-- The sources of the attempts are those that had the turns. -/
theorem Log.Tells.tried {log : Log} {result : Except Error Increment × Session}
    (tells : log.Tells s stats 0 result) {count : Nat} (within : count ≤ log.trials.length)
    : (s.turnsAfter stats count).tried = (log.trials.take count).map Trial.source := by
  induction count with
  | zero => simp [turnsAfter]
  | succ count ih =>
      have found : log.trials[count]? = some log.trials[count] := List.getElem?_eq_getElem within
      have after := tells.trials count _ found
      rw [Nat.zero_add] at after
      rw [tried_succ after, ih (by omega), List.take_add_one, found, List.map_append]
      rfl

/-- An attempt of the log is the turn that comes after those of the attempts before it. -/
theorem Log.Tells.turn {log : Log} {result : Except Error Increment × Session}
    (tells : log.Tells s stats 0 result) {earlier later : List Trial} {trial : Trial}
    (split : log.trials = earlier ++ trial :: later)
    : s.trialAfter stats earlier.length = some trial
      ∧ (s.turnsAfter stats earlier.length).tried = earlier.map Trial.source := by
  have found : log.trials[earlier.length]? = some trial := by simp [split]
  have after := tells.trials _ _ found
  rw [Nat.zero_add] at after
  have within : earlier.length ≤ log.trials.length := by simp [split]
  have tried := tells.tried within
  rw [split, List.take_left] at tried
  exact ⟨after, tried⟩

theorem refused_of_trialAfter {count : Nat} {trial : Trial}
    (after : s.trialAfter stats count = some trial) (refuses : s.RefusesTurn stats count)
    : trial.analysis.verdict = .refused := by
  obtain ⟨key, next, refused⟩ := refuses
  obtain ⟨source, picked, verdict, -⟩ := refused_of_attempt refused
  rw [trialAfter, trial?, picked, Option.map_some] at after
  obtain rfl := Option.some.inj after
  exact verdict

-----------------------------------------------------------------------------------------------
-- Rounds
-----------------------------------------------------------------------------------------------

/-- The list goes round the sources: it has some rounds with every source once, and then some
sources once.
-/
def GoesRound (sources tried : List (String × NodeId)) : Prop :=
  ∃ (rounds : List (List (String × NodeId))) (last : List (String × NodeId)),
    tried = rounds.flatten ++ last
    ∧ (∀ round ∈ rounds, round.Perm sources)
    ∧ last.Nodup
    ∧ last ⊆ sources

theorem tried_prefix (s : Session) (stats : Statistics) {few many : Nat} (fewer : few ≤ many)
    : (s.turnsAfter stats few).tried <+: (s.turnsAfter stats many).tried := by
  induction many, fewer using Nat.le_induction with
  | base => exact List.prefix_rfl
  | succ many _ ih =>
      rw [turnsAfter, Turns.next]
      split
      · exact ih.trans (List.prefix_append _ _)
      · exact ih

/-- In whole rounds every source has a turn in each. -/
theorem count_rounds (busy : s.hasSources = true) (stats : Statistics) (rounds : Nat)
    {e : String × NodeId} (live : e ∈ s.liveSources)
    : (s.turnsAfter stats (rounds * s.liveSources.length)).tried.count e = rounds := by
  obtain ⟨length, round, fair⟩ := fair_after busy stats (rounds * s.liveSources.length)
  have some := List.length_pos_of_mem live
  have share : rounds = round := by
    rw [← fair.share some, length, Nat.mul_div_cancel _ some]
  have total := fair.total
  rw [length, ← share] at total
  have none : (s.turnsAfter stats (rounds * s.liveSources.length)).skip = [] :=
    List.eq_nil_of_length_eq_zero (by omega)
  rw [fair.each e live, none, share]
  simp

/-- The turns of one round more are those of every source once, by what the counts are before it and
after it.
-/
theorem perm_of_round (busy : s.hasSources = true) {count : Nat}
    {round : List (String × NodeId)}
    (split
      : (s.turnsAfter stats (count * s.liveSources.length)).tried ++ round
          = (s.turnsAfter stats ((count + 1) * s.liveSources.length)).tried)
    : round.Perm s.liveSources := by
  rw [List.perm_iff_count]
  intro e
  by_cases live : e ∈ s.liveSources
  · have now := congrArg (List.count e) split
    rw [List.count_append, count_rounds busy stats count live,
      count_rounds busy stats (count + 1) live] at now
    rw [List.count_eq_one_of_mem s.liveSources_nodup live]
    omega
  · have absent : e ∉ round := fun member =>
      live ((turned_after s stats _).live e (split ▸ List.mem_append_right _ member))
    rw [List.count_eq_zero_of_not_mem absent, List.count_eq_zero_of_not_mem live]

/-- Whole rounds have every source once each, by induction on the rounds. -/
theorem exists_rounds (busy : s.hasSources = true) (stats : Statistics) (count : Nat)
    : ∃ rounds : List (List (String × NodeId)),
        (s.turnsAfter stats (count * s.liveSources.length)).tried = rounds.flatten
        ∧ ∀ round ∈ rounds, round.Perm s.liveSources := by
  induction count with
  | zero => exact ⟨[], by simp [turnsAfter], by simp⟩
  | succ count ih =>
      obtain ⟨rounds, whole, each⟩ := ih
      obtain ⟨round, split⟩ := s.tried_prefix stats
        (Nat.mul_le_mul_right s.liveSources.length (Nat.le_add_right count 1))
      refine ⟨rounds ++ [round], ?_, ?_⟩
      · rw [← split, whole, List.flatten_append, List.flatten_singleton]
      · intro other member
        rcases List.mem_append.mp member with before | last
        · exact each other before
        · rw [List.mem_singleton.mp last]
          exact perm_of_round busy split

/-- The turns go round the live sources: after the whole rounds no source has two of them. -/
theorem goesRound_after (s : Session) (stats : Statistics) (count : Nat)
    : GoesRound s.liveSources (s.turnsAfter stats count).tried := by
  have within := (turned_after s stats count).live
  cases busy : s.hasSources with
  | false =>
      refine ⟨[], [], ?_, by simp, List.nodup_nil, by simp⟩
      refine List.eq_nil_iff_forall_not_mem.mpr fun e member => ?_
      simp [hasSources_iff.mpr ⟨e, within e member⟩] at busy
  | true =>
      obtain ⟨rounds, whole, each⟩ := exists_rounds busy stats (count / s.liveSources.length)
      obtain ⟨last, split⟩ := s.tried_prefix stats
        (Nat.div_mul_le_self count s.liveSources.length)
      have subset : last ⊆ s.liveSources := fun e member =>
        within e (split ▸ List.mem_append_right _ member)
      refine ⟨rounds, last, by rw [← whole, split], each, ?_, subset⟩
      rw [List.nodup_iff_count_le_one]
      intro e
      by_cases member : e ∈ last
      · have live := subset member
        have now := congrArg (List.count e) split
        rw [List.count_append, count_rounds busy stats _ live] at now
        have bound := (count_after busy stats count live).2
        omega
      · rw [List.count_eq_zero_of_not_mem member]
        exact Nat.zero_le 1

-----------------------------------------------------------------------------------------------
-- Fair retries
-----------------------------------------------------------------------------------------------

/-- An attempt goes to the consumer whose turn it is: only the turns of its source have moved the
queue on.
-/
theorem Keyed.turn_of_trialAfter (keyed : s.Keyed) {count : Nat} {trial : Trial}
    (after : s.trialAfter stats count = some trial)
    : ∃ consumer,
        (s.node trial.source.2).active[
            (s.turnsAfter stats count).tried.count trial.source
              % (s.node trial.source.2).active.length]?
          = some consumer
        ∧ trial.consumer = some consumer
        ∧ trial.analysis
          = ((s.front trial.source.2 consumer).view stats).analyze trial.source.2 s.nextStage := by
  obtain ⟨source, picked, rfl⟩ := Option.map_eq_some_iff.mp after
  have turned := turned_after s stats count
  have member : source ∈ s.liveSources := turned.liveSources ▸ mem_of_pick picked
  obtain ⟨-, active⟩ := mem_liveSources_iff.mp member
  have below := Nat.mod_lt ((s.turnsAfter stats count).tried.count source)
    (List.length_pos_iff.mpr active)
  have found := List.getElem?_eq_getElem below
  have next := found
  rw [← List.head?_rotate below, List.rotate_mod] at next
  refine ⟨_, found, ?_, turned.analyze keyed member next⟩
  dsimp only
  rw [turned.node, PhysicalNode.turned, keyed.count_node turned.live member]
  exact next

/-- The attempts of an increment take turns. They go round the live sources, and one that comes
after so many others from its source goes to the consumer that is as many places behind the front
of the queue, counted round. It is analyzed as if that consumer had been in front from the
beginning.
-/
structure TakesTurns (s : Session) (stats : Statistics) : Prop where
  /-- The attempts that are listed are those of the increment. -/
  result : (s.log stats).result = s.planIncrement stats
  busy : s.hasSources = true → (s.log stats).trials ≠ []
  /-- There is another attempt only after a refusal. -/
  refused
    : ∀ earlier trial next later,
        (s.log stats).trials = earlier ++ trial :: next :: later →
          trial.analysis.verdict = .refused
  /-- No source is live under two keys. -/
  distinct : (s.liveSources.map Prod.snd).Nodup
  rounds : GoesRound s.liveSources ((s.log stats).trials.map Trial.source)
  turns
    : ∀ earlier trial later,
        (s.log stats).trials = earlier ++ trial :: later →
          ∃ consumer,
            (s.node trial.source.2).active[
                (earlier.map Trial.source).count trial.source
                  % (s.node trial.source.2).active.length]?
              = some consumer
            ∧ trial.consumer = some consumer
            ∧ trial.analysis
              = ((s.front trial.source.2 consumer).view stats).analyze trial.source.2 s.nextStage

theorem Keyed.takesTurns (keyed : s.Keyed) (stats : Statistics) : s.TakesTurns stats := by
  have tells := s.log_tells stats
  refine ⟨tells.result, ?_, ?_, ?_, ?_, ?_⟩
  · intro busy
    exact tells.busy ((hasSources_prune s).trans busy)
  · intro earlier trial next later split
    obtain ⟨after, -⟩ := tells.turn split
    have refuses := tells.refused earlier.length (by simp [split])
    rw [Nat.zero_add] at refuses
    exact refused_of_trialAfter after refuses
  · exact s.liveSources_nodup.map_on fun e left f right same =>
      keyed.liveSource_eq_of_node left right same
  · have whole := tells.tried (Nat.le_refl _)
    rw [List.take_length] at whole
    rw [← whole, ← liveSources_prune]
    exact goesRound_after s.prune stats _
  · intro earlier trial later split
    obtain ⟨after, tried⟩ := tells.turn split
    rw [← tried]
    exact keyed.prune.turn_of_trialAfter after

/-- In every session that a run of a graph leads to whose computations are filed under their own
names, the attempts of an increment take turns, whatever the statistics are.
-/
theorem takesTurns_of_run {jobId : String} {g : Graph} {config : PlannerConfig} {first : Session}
    (started : Session.start jobId g config = .ok first) (named : g.Named)
    (calls : List (Call × Statistics)) (stats : Statistics)
    : (first.run calls).2.TakesTurns stats := by
  obtain ⟨beginning, -⟩ := beginning_of_start started
  obtain ⟨-, -, keyed⟩ := beginning.keyed_of_waits named calls .here
  exact keyed.takesTurns stats

/-- At equal costs the third round comes to the third consumer of `db:a`, which is planned. Until
then the only consumer of `db:b` is tried in every round.
-/
theorem lateConsumer_takesTurns
    : ∃ first calls,
        Session.start "job" lateConsumer .standard = .ok first
        ∧ (first.run calls).2.liveSources.map
            (fun e => (e.1, ((first.run calls).2.node e.2).active))
          = [("db:a", [⟨1⟩, ⟨5⟩, ⟨13⟩]), ("db:b", [⟨9⟩])]
        ∧ ((first.run calls).2.log .empty).trials.map
            (fun trial => (trial.source.1, trial.consumer, trial.analysis.verdict == .refused))
          = [("db:a", some ⟨1⟩, true), ("db:b", some ⟨9⟩, true), ("db:a", some ⟨5⟩, true),
              ("db:b", some ⟨9⟩, true), ("db:a", some ⟨13⟩, false)]
        ∧ (first.run calls).2.TakesTurns .empty := by
  let calls : List (Call × Statistics) := .replicate 3 (.planIncrement, lateStatistics)
  have evaluated :
      (Session.start "job" lateConsumer .standard).toOption.map (fun first =>
        ((first.run calls).2.liveSources.map
            (fun e => (e.1, ((first.run calls).2.node e.2).active)),
          ((first.run calls).2.log .empty).trials.map
            (fun trial => (trial.source.1, trial.consumer, trial.analysis.verdict == .refused))))
        = some ([("db:a", [⟨1⟩, ⟨5⟩, ⟨13⟩]), ("db:b", [⟨9⟩])],
            [("db:a", some ⟨1⟩, true), ("db:b", some ⟨9⟩, true), ("db:a", some ⟨5⟩, true),
              ("db:b", some ⟨9⟩, true), ("db:a", some ⟨13⟩, false)]) := by
    decide +kernel
  obtain ⟨first, started, evaluated⟩ := Except.toOption_map_eq_some_iff.mp evaluated
  obtain ⟨queues, trials⟩ := Prod.mk.inj evaluated
  exact ⟨first, calls, started, queues, trials,
    takesTurns_of_run started (Graph.named_ofLists _ _) calls .empty⟩

/-- Two steps whose computations call themselves `cx`. What `x` makes of two inputs is joined twice,
each time with a set that another join follows on, and two writes read what `z` makes.
-/
def namesakes : Graph :=
  .renamed
    (.ofLists
      [.scan "scan_a" "db" "a", .scan "scan_b" "db" "b", .scan "scan_d" "db" "d",
        .scan "scan_e" "db" "e", .scan "scan_f" "db" "f", .scan "scan_h" "db" "h",
        .ofKind "cx" .selection, .ofKind "cz" .selection, .ofKind "join" .join,
        (Computation.ofKind "w1" .write).setOutput "db" "o1",
        (Computation.ofKind "w2" .write).setOutput "db" "o2",
        (Computation.ofKind "w3" .write).setOutput "db" "o3",
        (Computation.ofKind "w4" .write).setOutput "db" "o4"]
      [.scan "a" "scan_a", .scan "b" "scan_b", .scan "d" "scan_d", .scan "e" "scan_e",
        .scan "f" "scan_f", .scan "h" "scan_h", ⟨"x", ["a", "b"], "cx", .other⟩,
        .apply "z" "d" "cz", .apply "o1" "z" "w1", .apply "o2" "z" "w2",
        .join "j1" "x" "e" "join", .join "j2" "j1" "f" "join", .apply "o3" "j2" "w3",
        .join "j3" "x" "h" "join", .join "j4" "j3" "f" "join", .apply "o4" "j4" "w4"])
    "cz" "cx"

/-- Scanned sets, each of which is larger than the one before. -/
def ascending (names : List String) : Statistics :=
  names.zipIdx.foldl (fun stats (name, i) => stats.setBytes "db" name ((i + 1) * 1000000)) .empty

/-- Five increments that start from the scans `a`, `d`, `b`, `e` and `h`. -/
def namesakeCalls : List (Call × Statistics) :=
  [ascending ["a", "d", "b", "e", "h", "f"],
    (ascending ["d", "b", "e", "h", "f"]).setBytes "job" "x" 900000000,
    ((ascending ["b", "e", "h", "f"]).setBytes "job" "x" 900000000).setBytes "job" "z" 900000000,
    ((ascending ["e", "h", "f"]).setBytes "job" "x" 900000000).setBytes "job" "z" 900000000,
    ((ascending ["h", "f"]).setBytes "job" "x" 900000000).setBytes "job" "z" 900000000].map
      (.planIncrement, ·)

/-- The node that makes `x` is live under two keys then, so that its first attempt under the second
one comes to the second consumer of its queue.
-/
theorem namesakes_skipsTurn
    : ∃ first,
        Session.start "job" namesakes .standard = .ok first
        ∧ (first.run namesakeCalls).2.liveSources
          = [("db:f", ⟨14⟩), ("job:x", ⟨1⟩), ("job:z", ⟨1⟩)]
        ∧ ((first.run namesakeCalls).2.node ⟨1⟩).active = [⟨2⟩, ⟨3⟩]
        ∧ ((first.run namesakeCalls).2.log (ascending ["f"])).trials.map
            (fun trial => (trial.source, trial.consumer, trial.analysis.verdict == .refused))
          = [(("job:x", ⟨1⟩), some ⟨2⟩, true), (("job:z", ⟨1⟩), some ⟨3⟩, true),
              (("db:f", ⟨14⟩), some ⟨6⟩, false)]
        ∧ ¬ (first.run namesakeCalls).2.TakesTurns (ascending ["f"]) := by
  have evaluated : (Session.start "job" namesakes .standard).toOption.any (fun first =>
      let s := (first.run namesakeCalls).2
      s.liveSources == [("db:f", ⟨14⟩), ("job:x", ⟨1⟩), ("job:z", ⟨1⟩)]
        && (s.node ⟨1⟩).active == [⟨2⟩, ⟨3⟩]
        && (s.log (ascending ["f"])).trials.map
              (fun trial => (trial.source, trial.consumer, trial.analysis.verdict == .refused))
            == [(("job:x", ⟨1⟩), some ⟨2⟩, true), (("job:z", ⟨1⟩), some ⟨3⟩, true),
              (("db:f", ⟨14⟩), some ⟨6⟩, false)]) = true := by
    decide +kernel
  obtain ⟨first, started, evaluated⟩ := Except.toOption_any_iff.mp evaluated
  simp only [Bool.and_eq_true, beq_iff_eq] at evaluated
  obtain ⟨⟨live, queue⟩, trials⟩ := evaluated
  refine ⟨first, started, live, queue, trials, fun takes => ?_⟩
  obtain ⟨x, later, split, isX, afterX⟩ := List.map_eq_cons_iff.mp trials
  obtain ⟨z, rest, again, isZ, -⟩ := List.map_eq_cons_iff.mp afterX
  obtain ⟨sourceX, -⟩ := Prod.mk.inj isX
  obtain ⟨sourceZ, triedZ⟩ := Prod.mk.inj isZ
  obtain ⟨consumer, place, tried, -⟩ := takes.turns [x] z rest (by rw [split, again]; rfl)
  rw [sourceZ, queue, List.map_singleton, sourceX] at place
  have front : consumer = ⟨2⟩ := (Option.some.inj place).symm
  rw [(Prod.mk.inj triedZ).1, front] at tried
  simp at tried

end DataflowPlan.Session
