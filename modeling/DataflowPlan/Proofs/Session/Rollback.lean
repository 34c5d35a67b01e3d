import DataflowPlan.Proofs.Analysis.InPlace
import DataflowPlan.Proofs.Session.Registry

/-! Rolled back attempts. A refused attempt leaves a penalty and a turned queue and nothing else, a
failed one leaves nothing, also if the analysis works on the topology in place.
-/

namespace DataflowPlan.Session

/-- The attempt with its analysis in place: the session takes whatever the analysis has left of the
topology, also when it was refused or failed.
-/
def attemptInPlace (s : Session) (stats : Statistics) (skip : List String) : Attempt × Session :=
  match s.pick stats skip with
  | none => (.idle, s)
  | some (key, source) =>
    match InPlace.analyze (s.view stats) source ⟨s.topology, s.nextStage⟩ with
    | (.error error, left) => (.failed error, { s with topology := left.topology })
    | (.ok none, left) =>
      (.refused key,
        { s with topology := left.topology, penalized := s.penalized.add key })
    | (.ok (some segment), left) =>
      let s := { s with topology := left.topology, nextStage := left.next }
      (.planned ⟨segment.stages, segment.intermediateSets⟩,
        (s.register segment).dropIfExhausted key source)

/-- The call with its analysis in place. -/
def nextStagesInPlace (s : Session) (stats : Statistics) (out : Increment)
    : Except Error Bool × Increment × Session :=
  match s.attemptInPlace stats [] with
  | (.planned increment, s) => (.ok true, out.append increment, s)
  | (.refused _, s) | (.idle, s) => (.ok false, out, s)
  | (.failed error, s) => (.error error, out, s)

/-- An attempt leaves the same whether its analysis works in place or proposes its changes. -/
theorem attemptInPlace_eq (s : Session) (stats : Statistics) (skip : List String)
    : s.attemptInPlace stats skip = s.attempt stats skip := by
  unfold attemptInPlace attempt
  cases s.pick stats skip with
  | none => rfl
  | some choice =>
      obtain ⟨key, source⟩ := choice
      obtain ⟨outcome, topology, next⟩ :=
        InPlace.analyze_agrees (s.view stats) source s.nextStage
      have start : (s.view stats).topology = s.topology := rfl
      rw [start] at outcome topology next
      dsimp only
      generalize InPlace.analyze (s.view stats) source ⟨s.topology, s.nextStage⟩ = result
        at outcome topology next
      obtain ⟨found, left⟩ := result
      generalize (s.view stats).analyze source s.nextStage = analysis at outcome topology next
      obtain ⟨reached, verdict⟩ := analysis
      cases verdict with
      | planned segment =>
          obtain rfl : found = .ok (some segment.made) := outcome
          obtain rfl : left = ⟨segment.apply s.topology, reached⟩ := by
            cases left
            exact congrArg₂ Bench.mk topology (next segment rfl)
          rfl
      | refused =>
          obtain rfl : found = .ok none := outcome
          have turned : left.topology
              = { s.topology with arena := s.topology.arena.rotate source } := topology
          simp only [turned, penalize]
      | failed error =>
          obtain rfl : found = .error error := outcome
          have same : left.topology = s.topology := topology
          simp only [same]

/-- The session after the source was refused: it is penalized, its next consumer is behind the
others, and nothing else has changed.
-/
structure Refused (s : Session) (key : String) (source : NodeId) (next : Session) : Prop where
  jobId : next.jobId = s.jobId
  config : next.config = s.config
  graph : next.topology.graph = s.topology.graph
  size : next.topology.arena.size = s.topology.arena.size
  sources : next.sources = s.sources
  nextStage : next.nextStage = s.nextStage
  penalized
    : ∀ other,
        next.penalized.contains other = (decide (other = key) || s.penalized.contains other)
  others : ∀ p, p ≠ source → next.node p = s.node p
  turned
    : ∃ front rest,
        (s.node source).active = front :: rest
        ∧ next.node source = { s.node source with active := rest ++ [front] }

theorem refused_penalize {s : Session} {key : String} {source : NodeId}
    (live : (s.node source).active ≠ [])
    : s.Refused key source (s.penalize key source) := by
  refine ⟨rfl, rfl, rfl, Arena.size_modify _ _ _, rfl, rfl, ?_, ?_, ?_⟩
  · intro other
    rw [penalize, KeySet.add, Table.contains_eq_isSome, Table.get?_insert,
      Table.contains_eq_isSome]
    by_cases same : other = key <;> simp [same]
  · intro p other
    rw [node_penalize, if_neg other]
  · obtain ⟨front, rest, active⟩ := List.exists_cons_of_ne_nil live
    refine ⟨front, rest, active, ?_⟩
    rw [node_penalize, if_pos rfl, PhysicalNode.rotate, active]

/-- What a call that plans nothing leaves, in place or not. -/
structure RollsBack (s : Session) (stats : Statistics) (out : Increment) : Prop where
  inPlace : s.nextStagesInPlace stats out = s.nextStages stats out
  refused
    : ∀ after next,
        s.nextStages stats out = (.ok false, after, next) →
          after = out
          ∧ (s.bestSource stats = none ∧ next = s
            ∨ ∃ key source,
                s.bestSource stats = some (key, source)
                ∧ s.sources.get? key = some source
                ∧ s.Refused key source next)
  failed
    : ∀ error after next,
        s.nextStages stats out = (.error error, after, next) → after = out ∧ next = s

/-- Attempts that plan nothing are rolled back, in every session and with any statistics. -/
theorem nextStages_rollsBack (s : Session) (stats : Statistics) (out : Increment)
    : s.RollsBack stats out := by
  refine ⟨?_, ?_, ?_⟩
  · rcases outcome : s.attempt stats [] with ⟨attempt, left⟩
    cases attempt <;> simp [nextStagesInPlace, attemptInPlace_eq, nextStages, outcome]
  · intro after next planned
    rw [nextStages] at planned
    rcases outcome : s.attempt stats [] with ⟨attempt, left⟩
    rw [outcome] at planned
    cases attempt with
    | planned increment => simp at planned
    | refused key =>
        obtain ⟨rfl, rfl⟩ : out = after ∧ left = next := by simpa using planned
        obtain ⟨source, picked, -, rfl⟩ := refused_of_attempt outcome
        obtain ⟨registered, live⟩ := mem_liveSources_iff.mp (mem_of_pick picked)
        exact ⟨rfl, .inr ⟨key, source, picked, registered, refused_penalize live⟩⟩
    | idle =>
        obtain ⟨rfl, rfl⟩ : out = after ∧ left = next := by simpa using planned
        obtain ⟨none, rfl⟩ := idle_of_attempt outcome
        exact ⟨rfl, .inl ⟨pick_eq_none_iff.mpr none, rfl⟩⟩
    | failed error => simp at planned
  · intro error after next planned
    rw [nextStages] at planned
    rcases outcome : s.attempt stats [] with ⟨attempt, left⟩
    rw [outcome] at planned
    cases attempt with
    | planned increment => simp at planned
    | refused key => simp at planned
    | idle => simp at planned
    | failed error =>
        obtain ⟨-, rfl, rfl⟩ : _ ∧ out = after ∧ left = next := by simpa using planned
        exact ⟨rfl, failed_of_attempt outcome⟩

end DataflowPlan.Session
