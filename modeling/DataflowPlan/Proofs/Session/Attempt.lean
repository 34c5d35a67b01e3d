import DataflowPlan.Proofs.Analysis.Ledger
import DataflowPlan.Session

/-! One attempt at a time: which source is picked, what the outcome says of its analysis, and how
far it brings the session.
-/

namespace DataflowPlan.Session

/-- The increment of an attempt that plans one. -/
def Attempt.increment? : Attempt → Option Increment
  | .planned increment => some increment
  | .refused _ | .idle | .failed _ => none

theorem Attempt.increment?_eq_some_iff {attempt : Attempt} {increment : Increment}
    : attempt.increment? = some increment ↔ attempt = .planned increment := by
  cases attempt <;> simp [increment?]

variable {s : Session} {stats : Statistics} {skip : List String}

theorem isLive_iff {id : NodeId} : s.isLive id = true ↔ (s.node id).active ≠ [] := by
  simp [isLive, PhysicalNode.hasConsumers]

theorem mem_liveSources_iff {key : String} {id : NodeId}
    : (key, id) ∈ s.liveSources
        ↔ s.sources.get? key = some id ∧ (s.node id).active ≠ [] := by
  rw [liveSources, List.mem_filter, Table.mem_entries_iff, isLive_iff]

theorem hasSources_iff : s.hasSources = true ↔ ∃ source, source ∈ s.liveSources := by
  rw [hasSources, List.any_eq_true]
  constructor
  · rintro ⟨id, member, live⟩
    obtain ⟨key, found⟩ := s.sources.mem_values_iff.mp member
    exact ⟨(key, id), mem_liveSources_iff.mpr ⟨found, isLive_iff.mp live⟩⟩
  · rintro ⟨⟨key, id⟩, member⟩
    obtain ⟨found, live⟩ := mem_liveSources_iff.mp member
    exact ⟨id, s.sources.mem_values_iff.mpr ⟨key, found⟩, isLive_iff.mpr live⟩

/-- The best of some sources is one of them, or the one that was best before. -/
theorem foldl_better {sources : List (String × NodeId)} (best : Option (String × NodeId))
    : sources.foldl (s.better stats skip) best = best
      ∨ ∃ source ∈ sources, sources.foldl (s.better stats skip) best = some source := by
  induction sources generalizing best with
  | nil => exact .inl rfl
  | cons head rest ih =>
      rw [List.foldl_cons]
      rcases ih (s.better stats skip best head) with same | ⟨source, member, found⟩
      · rw [same]
        cases best with
        | none => exact .inr ⟨head, by simp, rfl⟩
        | some earlier =>
            unfold better
            dsimp only
            split
            · exact .inr ⟨head, by simp, rfl⟩
            · exact .inl rfl
      · exact .inr ⟨source, by simp [member], found⟩

/-- A better source only takes the place of none or of another one. -/
theorem foldl_better_isSome {sources : List (String × NodeId)} {best : String × NodeId}
    : (sources.foldl (s.better stats skip) (some best)).isSome := by
  induction sources generalizing best with
  | nil => rfl
  | cons head rest ih =>
      rw [List.foldl_cons]
      unfold better
      dsimp only
      split
      · exact ih
      · exact ih

theorem mem_of_pick {source : String × NodeId} (picked : s.pick stats skip = some source)
    : source ∈ s.liveSources := by
  have chosen : s.pick stats skip = none
      ∨ ∃ other ∈ s.liveSources, s.pick stats skip = some other := foldl_better none
  rcases chosen with none | ⟨other, member, found⟩
  · simp [none] at picked
  · rw [found] at picked
    exact Option.some.inj picked ▸ member

/-- A source is picked unless there is none. -/
theorem pick_eq_none_iff : s.pick stats skip = none ↔ s.hasSources = false := by
  rw [Bool.eq_false_iff, ne_eq, hasSources_iff]
  constructor
  · rintro none ⟨source, member⟩
    cases sources : s.liveSources with
    | nil => simp [sources] at member
    | cons head rest =>
        have found : (rest.foldl (s.better stats skip) (some head)).isSome := foldl_better_isSome
        rw [pick, sources, List.foldl_cons] at none
        simp only [better] at none
        simp [none] at found
  · intro empty
    cases picked : s.pick stats skip with
    | none => rfl
    | some source => exact absurd ⟨source, mem_of_pick picked⟩ empty

/-- What a planned attempt did: it picked a live source, and the analysis of that source planned a
segment that is committed now.
-/
structure Committed (s : Session) (stats : Statistics) (skip : List String) (key : String)
    (source : NodeId) (reached : StageId) (segment : Segment) : Prop where
  picked : s.pick stats skip = some (key, source)
  planned : (s.view stats).analyze source s.nextStage = ⟨reached, .planned segment⟩

theorem committed_of_attempt {increment : Increment} {next : Session}
    (planned : s.attempt stats skip = (.planned increment, next))
    : ∃ key source reached segment,
        s.Committed stats skip key source reached segment
        ∧ increment = ⟨segment.stages, segment.intermediateSets⟩
        ∧ next = s.commit key source reached segment := by
  unfold attempt at planned
  cases picked : s.pick stats skip with
  | none => simp [picked] at planned
  | some choice =>
      obtain ⟨key, source⟩ := choice
      simp only [picked] at planned
      cases analysis : (s.view stats).analyze source s.nextStage with
      | mk reached verdict =>
          simp only [analysis] at planned
          cases verdict with
          | planned segment =>
              simp only [Prod.mk.injEq, Attempt.planned.injEq] at planned
              obtain ⟨rfl, rfl⟩ := planned
              exact ⟨key, source, reached, segment, ⟨picked, analysis⟩, rfl, rfl⟩
          | refused => simp at planned
          | failed error => simp at planned

theorem refused_of_attempt {key : String} {next : Session}
    (refused : s.attempt stats skip = (.refused key, next))
    : ∃ source,
        s.pick stats skip = some (key, source)
        ∧ ((s.view stats).analyze source s.nextStage).verdict = .refused
        ∧ next = s.penalize key source := by
  unfold attempt at refused
  cases picked : s.pick stats skip with
  | none => simp [picked] at refused
  | some choice =>
      obtain ⟨found, source⟩ := choice
      simp only [picked] at refused
      cases verdict : ((s.view stats).analyze source s.nextStage).verdict with
      | planned segment => simp [verdict] at refused
      | refused =>
          simp only [verdict, Prod.mk.injEq, Attempt.refused.injEq] at refused
          obtain ⟨rfl, rfl⟩ := refused
          exact ⟨source, rfl, verdict, rfl⟩
      | failed error => simp [verdict] at refused

theorem idle_of_attempt {next : Session} (idle : s.attempt stats skip = (.idle, next))
    : s.hasSources = false ∧ next = s := by
  unfold attempt at idle
  cases picked : s.pick stats skip with
  | none =>
      simp only [picked, Prod.mk.injEq, true_and] at idle
      exact ⟨pick_eq_none_iff.mp picked, idle.symm⟩
  | some choice =>
      simp only [picked] at idle
      cases verdict : ((s.view stats).analyze choice.2 s.nextStage).verdict <;>
        simp [verdict] at idle

/-- Without a live source an attempt is idle, so any other one has a live source. -/
theorem hasSources_of_attempt {attempt : Attempt} {next : Session}
    (outcome : s.attempt stats skip = (attempt, next)) (busy : attempt ≠ .idle)
    : s.hasSources = true := by
  by_contra idle
  have picked : s.pick stats skip = none := pick_eq_none_iff.mpr (by simpa using idle)
  rw [Session.attempt, picked] at outcome
  exact busy (Prod.mk.inj outcome).1.symm

/-- A failed attempt changes nothing. -/
theorem failed_of_attempt {error : Error} {next : Session}
    (failed : s.attempt stats skip = (.failed error, next))
    : next = s := by
  unfold attempt at failed
  cases picked : s.pick stats skip with
  | none => simp [picked] at failed
  | some choice =>
      simp only [picked] at failed
      cases verdict : ((s.view stats).analyze choice.2 s.nextStage).verdict with
      | planned segment => simp [verdict] at failed
      | refused => simp [verdict] at failed
      | failed error =>
          simp only [verdict, Prod.mk.injEq] at failed
          exact failed.2.symm

variable {key : String} {source : NodeId} {reached : StageId} {segment : Segment}

theorem Committed.live (done : s.Committed stats skip key source reached segment)
    : s.sources.get? key = some source ∧ (s.node source).active ≠ [] :=
  mem_liveSources_iff.mp (mem_of_pick done.picked)

theorem Committed.course (done : s.Committed stats skip key source reached segment)
    : ∃ init last, (s.view stats).Course source init last segment :=
  View.course_of_analyze done.planned

theorem topology_commit (s : Session) (key : String) (source : NodeId) (reached : StageId)
    (segment : Segment)
    : (s.commit key source reached segment).topology = segment.apply s.topology := by
  unfold commit register dropIfExhausted
  cases segment.newSource <;> dsimp only <;> split <;> rfl

theorem node_commit (s : Session) (key : String) (source : NodeId) (reached : StageId)
    (segment : Segment) (p : NodeId)
    : (s.commit key source reached segment).node p = (segment.apply s.topology).arena.node p := by
  rw [node, topology_commit]

/-- A planned pipeline takes as many consumers off a node as it came through it. -/
theorem active_commit {init : List NodeId} {last : NodeId}
    (course : (s.view stats).Course source init last segment) (p : NodeId)
    : ((s.commit key source reached segment).node p).active
        = (s.node p).active.drop ((source :: (s.view stats).steps init).count p) := by
  rw [node_commit]
  exact course.active p

theorem length_active_commit {init : List NodeId} {last : NodeId}
    (course : (s.view stats).Course source init last segment) (p : NodeId)
    : ((s.commit key source reached segment).node p).active.length
        ≤ (s.node p).active.length := by
  rw [active_commit course, List.length_drop]
  exact Nat.sub_le _ _

theorem settings_commit (s : Session) (key : String) (source : NodeId) (reached : StageId)
    (segment : Segment)
    : (s.commit key source reached segment).jobId = s.jobId
      ∧ (s.commit key source reached segment).config = s.config := by
  unfold commit register dropIfExhausted
  cases segment.newSource <;> dsimp only <;> split <;> exact ⟨rfl, rfl⟩

theorem nextStage_commit (s : Session) (key : String) (source : NodeId) (reached : StageId)
    (segment : Segment)
    : (s.commit key source reached segment).nextStage = reached := by
  unfold commit register dropIfExhausted
  cases segment.newSource <;> dsimp only <;> split <;> rfl

/-- The registry after a commit: the new source under its key, and the planned source only if some
of its consumers are left.
-/
theorem sources_commit (s : Session) (key : String) (source : NodeId) (reached : StageId)
    (segment : Segment) (other : String)
    : (s.commit key source reached segment).sources.get? other =
        if other = key ∧ ((segment.apply s.topology).arena.node source).active = [] then none
        else
          match segment.newSource with
          | some (id, set) => if other = set.key then some id else s.sources.get? other
          | none => s.sources.get? other := by
  unfold commit register dropIfExhausted
  cases segment.newSource with
  | none =>
      cases active : ((segment.apply s.topology).arena.node source).active with
      | nil =>
          simp only [isLive, node, PhysicalNode.hasConsumers, active, List.isEmpty_nil,
            Bool.not_true, Bool.false_eq_true, if_false, Table.get?_erase, and_true]
      | cons first rest => simp [isLive, node, PhysicalNode.hasConsumers, active]
  | some pair =>
      obtain ⟨id, set⟩ := pair
      cases active : ((segment.apply s.topology).arena.node source).active with
      | nil =>
          simp only [isLive, node, PhysicalNode.hasConsumers, active, List.isEmpty_nil,
            Bool.not_true, Bool.false_eq_true, if_false, Table.get?_erase, Table.get?_insert,
            and_true]
      | cons first rest =>
          simp [isLive, node, PhysicalNode.hasConsumers, active, Table.get?_insert]

end DataflowPlan.Session
