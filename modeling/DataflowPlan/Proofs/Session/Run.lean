import DataflowPlan.Proofs.Session.Attempt

/-! Runs: any sequence of planning calls with any statistics. What each attempt preserves holds
after every run, and planning all at once is a run as well.
-/

namespace DataflowPlan.Session

/-- The attempts of one increment: how many were refused so far, what is skipped next, and the
session that makes the next one.
-/
inductive Tries (stats : Statistics) (s : Session) : Nat → List String → Session → Prop
  | first : s.Tries stats 0 [] s
  | again {count skip m key next} (earlier : s.Tries stats count skip m) (left : count < s.budget)
    (refused : m.attempt stats skip = (.refused key, next))
    : s.Tries stats (count + 1) (next.nextSkip (key :: skip)) next

/-- How an increment comes out of its attempts. -/
inductive ComesTo (stats : Statistics) (s : Session) : Except Error Increment × Session → Prop
  | idle {count skip m} (tries : s.Tries stats count skip m) (none : m.hasSources = false)
    : s.ComesTo stats (.ok .empty, m)
  | planned {count skip m increment next} (tries : s.Tries stats count skip m)
    (planned : m.attempt stats skip = (.planned increment, next))
    : s.ComesTo stats (.ok increment, next)
  | failed {count skip m error next} (tries : s.Tries stats count skip m)
    (failed : m.attempt stats skip = (.failed error, next))
    : s.ComesTo stats (.error error, next)
  | stalled {skip m key next} (tries : s.Tries stats s.budget skip m)
    (refused : m.attempt stats skip = (.refused key, next))
    : s.ComesTo stats (.error (.stalled (s.budget + 1) next.sources.keys), next)

/-- Retrying goes on with the attempts of an increment.
Witness: induction on the refusals that are left.
-/
theorem Tries.retry {s m : Session} {stats : Statistics} (left : Nat) {count : Nat}
    {skip : List String} (tries : s.Tries stats count skip m) (budget : left + count = s.budget)
    : s.ComesTo stats (Session.retry stats left count skip m) := by
  induction left generalizing count skip m with
  | zero =>
      rw [Session.retry.eq_def]
      dsimp only
      split
      · next none => exact .idle tries (by simpa using none)
      · split
        · next planned => exact .planned tries planned
        · next idle =>
            obtain ⟨none, rfl⟩ := idle_of_attempt idle
            exact .idle tries none
        · next failed => exact .failed tries failed
        · next refused =>
            have whole : count = s.budget := by omega
            subst whole
            exact .stalled tries refused
  | succ left ih =>
      rw [Session.retry.eq_def]
      dsimp only
      split
      · next none => exact .idle tries (by simpa using none)
      · split
        · next planned => exact .planned tries planned
        · next idle =>
            obtain ⟨none, rfl⟩ := idle_of_attempt idle
            exact .idle tries none
        · next failed => exact .failed tries failed
        · next refused => exact ih (.again tries (by omega) refused) (by omega)

/-- Retrying from any of an increment's attempts comes to what the increment comes to. -/
theorem Tries.retry_eq {s m : Session} {stats : Statistics} {count : Nat} {skip : List String}
    (tries : s.Tries stats count skip m)
    : Session.retry stats s.budget 0 [] s
        = Session.retry stats (s.budget - count) count skip m := by
  induction tries with
  | first => rfl
  | @again count skip m key next earlier left refused ih =>
      have live := hasSources_of_attempt refused (by simp)
      obtain ⟨rest, more⟩ : ∃ rest, s.budget - count = rest + 1 := ⟨s.budget - count - 1, by omega⟩
      rw [ih, more, Session.retry.eq_def]
      simp only [live, refused, Bool.not_true, Bool.false_eq_true, if_false]
      rw [show s.budget - (count + 1) = rest by omega]

theorem planIncrement_comesTo (s : Session) (stats : Statistics)
    : s.prune.ComesTo stats (s.planIncrement stats) :=
  Tries.retry _ .first rfl

/-- The two calls that plan something. -/
inductive Call
  | nextStages
  | planIncrement
deriving DecidableEq

/-- The stages so far with those of an increment, if it is planned. -/
def collect (out : Increment) : Except Error Increment × Session → Increment × Session
  | (.ok increment, next) => (out.append increment, next)
  | (.error _, next) => (out, next)

/-- The stages so far and the session after one more call. -/
def call (s : Session) (out : Increment) (stats : Statistics) : Call → Increment × Session
  | .nextStages => (s.nextStages stats out).2
  | .planIncrement => collect out (s.planIncrement stats)

/-- The stages planned by calls in turn, and the session after them. -/
def run (s : Session) (calls : List (Call × Statistics)) : Increment × Session :=
  calls.foldl (fun state c => state.2.call state.1 c.2 c.1) (.empty, s)

theorem run_concat (s : Session) (calls : List (Call × Statistics)) (c : Call)
    (stats : Statistics)
    : s.run (calls ++ [(c, stats)]) = (s.run calls).2.call (s.run calls).1 stats c := by
  simp [run]

/-- What holds of stages and session through planned and refused attempts and clean-ups. -/
structure Steady (P : Increment → Session → Prop) : Prop where
  planned
    : ∀ {out s stats skip increment next},
        P out s →
          s.attempt stats skip = (.planned increment, next) → P (out.append increment) next
  refused
    : ∀ {out s stats skip key next},
        P out s → s.attempt stats skip = (.refused key, next) → P out next
  prune : ∀ {out s}, P out s → P out s.prune

/-- It is enough that commits, penalties and clean-ups keep it. -/
theorem steady_of_commit {P : Increment → Session → Prop}
    (commit
      : ∀ {out s stats skip key source reached segment},
          P out s →
            s.Committed stats skip key source reached segment →
              P (out.append ⟨segment.stages, segment.intermediateSets⟩)
                (s.commit key source reached segment))
    (penalize : ∀ {out s}, P out s → ∀ key source, P out (s.penalize key source))
    (prune : ∀ {out s}, P out s → P out s.prune)
    : Steady P := by
  refine ⟨?_, ?_, prune⟩
  · intro out s stats skip increment next holds planned
    obtain ⟨key, source, reached, segment, done, rfl, rfl⟩ := committed_of_attempt planned
    exact commit holds done
  · intro out s stats skip key next holds refused
    obtain ⟨source, -, -, rfl⟩ := refused_of_attempt refused
    exact penalize holds key source

namespace Steady

variable {P : Increment → Session → Prop} (steady : Steady P)

include steady

theorem tries {s m : Session} {stats : Statistics} {count : Nat} {skip : List String}
    {out : Increment} (holds : P out s) (tries : s.Tries stats count skip m)
    : P out m := by
  induction tries with
  | first => exact holds
  | again earlier left refused ih => exact steady.refused ih refused

theorem comesTo {s : Session} {stats : Statistics} {result : Except Error Increment × Session}
    {out : Increment} (holds : P out s) (ends : s.ComesTo stats result)
    : P (collect out result).1 (collect out result).2 := by
  cases ends with
  | idle tries none =>
      have kept := steady.tries holds tries
      simpa [collect, Increment.append, Increment.empty] using kept
  | planned tries planned => exact steady.planned (steady.tries holds tries) planned
  | failed tries failed =>
      obtain rfl := failed_of_attempt failed
      exact steady.tries holds tries
  | stalled tries refused => exact steady.refused (steady.tries holds tries) refused

theorem call {s : Session} {out : Increment} (holds : P out s) (stats : Statistics) (c : Call)
    : P (s.call out stats c).1 (s.call out stats c).2 := by
  cases c with
  | nextStages =>
      rw [Session.call, nextStages]
      cases outcome : s.attempt stats [] with
      | mk attempt next =>
          cases attempt with
          | planned increment => exact steady.planned holds outcome
          | refused key => exact steady.refused holds outcome
          | idle =>
              obtain ⟨-, rfl⟩ := idle_of_attempt outcome
              exact holds
          | failed error =>
              obtain rfl := failed_of_attempt outcome
              exact holds
  | planIncrement =>
      exact steady.comesTo (steady.prune holds) (s.planIncrement_comesTo stats)

/-- It holds after every run, if it holds before.
Witness: induction on the calls, from the last one.
-/
theorem run {s : Session} (holds : P .empty s) (calls : List (Call × Statistics))
    : P (s.run calls).1 (s.run calls).2 := by
  induction calls using List.reverseRecOn with
  | nil => exact holds
  | append_singleton calls last ih =>
      rw [run_concat]
      exact steady.call ih last.2 last.1

end Steady

/-- The session after refusals and clean-ups alone. -/
inductive Waits (s : Session) : Session → Prop
  | here : s.Waits s
  | prune {m} (before : s.Waits m) : s.Waits m.prune
  | refused {m stats skip key next} (before : s.Waits m)
    (refused : m.attempt stats skip = (.refused key, next))
    : s.Waits next

/-- What penalties and clean-ups keep, waiting keeps. -/
theorem Waits.keeps {P : Session → Prop}
    (penalize : ∀ {m}, P m → ∀ key source, P (m.penalize key source))
    (prune : ∀ {m}, P m → P m.prune) {s m : Session} (holds : P s) (waits : s.Waits m)
    : P m := by
  induction waits with
  | here => exact holds
  | prune before ih => exact prune ih
  | refused before refused ih =>
      obtain ⟨source, -, -, rfl⟩ := refused_of_attempt refused
      exact penalize ih _ source

/-- The call plans a pipeline: what is committed, and the session that it is committed to. -/
inductive Plans (s : Session) (stats : Statistics)
    : Call → Session → String → NodeId → StageId → Segment → Prop
  | nextStages {key source reached segment}
    (done : s.Committed stats [] key source reached segment)
    : s.Plans stats .nextStages s key source reached segment
  | planIncrement {count skip m key source reached segment}
    (tries : s.prune.Tries stats count skip m)
    (done : m.Committed stats skip key source reached segment)
    : s.Plans stats .planIncrement m key source reached segment

theorem Tries.waits {s m : Session} {stats : Statistics} {count : Nat} {skip : List String}
    (tries : s.prune.Tries stats count skip m)
    : s.Waits m := by
  induction tries with
  | first => exact .prune .here
  | again earlier left refused ih => exact .refused ih refused

theorem Plans.waits {s m : Session} {stats : Statistics} {c : Call} {key : String}
    {source : NodeId} {reached : StageId} {segment : Segment}
    (plans : s.Plans stats c m key source reached segment)
    : s.Waits m := by
  cases plans with
  | nextStages done => exact .here
  | planIncrement tries done => exact tries.waits

theorem Plans.committed {s m : Session} {stats : Statistics} {c : Call} {key : String}
    {source : NodeId} {reached : StageId} {segment : Segment}
    (plans : s.Plans stats c m key source reached segment)
    : ∃ skip, m.Committed stats skip key source reached segment := by
  cases plans with
  | nextStages done => exact ⟨_, done⟩
  | planIncrement tries done => exact ⟨_, done⟩

theorem Committed.attempt {s : Session} {stats : Statistics} {skip : List String} {key : String}
    {source : NodeId} {reached : StageId} {segment : Segment}
    (done : s.Committed stats skip key source reached segment)
    : s.attempt stats skip
        = (.planned ⟨segment.stages, segment.intermediateSets⟩,
            s.commit key source reached segment) := by
  simp [Session.attempt, done.picked, done.planned]

/-- A call plans a pipeline, or only waits. -/
theorem call_cases (s : Session) (out : Increment) (stats : Statistics) (c : Call)
    : s.Waits (s.call out stats c).2
      ∨ ∃ m key source reached segment,
          s.Plans stats c m key source reached segment
          ∧ (s.call out stats c).2 = m.commit key source reached segment := by
  cases c with
  | nextStages =>
      rw [Session.call, Session.nextStages]
      cases outcome : s.attempt stats [] with
      | mk attempt next =>
          cases attempt with
          | planned increment =>
              obtain ⟨key, source, reached, segment, done, -, rfl⟩ :=
                committed_of_attempt outcome
              exact .inr ⟨s, key, source, reached, segment, .nextStages done, rfl⟩
          | refused key => exact .inl (.refused .here outcome)
          | idle =>
              obtain ⟨-, rfl⟩ := idle_of_attempt outcome
              exact .inl .here
          | failed error =>
              obtain rfl := failed_of_attempt outcome
              exact .inl .here
  | planIncrement =>
      rw [Session.call]
      have ends := s.planIncrement_comesTo stats
      generalize s.planIncrement stats = result at ends
      cases ends with
      | idle tries none => exact .inl tries.waits
      | planned tries planned =>
          obtain ⟨key, source, reached, segment, done, -, rfl⟩ := committed_of_attempt planned
          exact .inr ⟨_, key, source, reached, segment, .planIncrement tries done, rfl⟩
      | failed tries failed =>
          obtain rfl := failed_of_attempt failed
          exact .inl tries.waits
      | stalled tries refused => exact .inl (.refused tries.waits refused)

/-- What a call plans is what it leaves. -/
theorem Plans.call {s m : Session} {stats : Statistics} {c : Call} {key : String}
    {source : NodeId} {reached : StageId} {segment : Segment}
    (plans : s.Plans stats c m key source reached segment) (out : Increment)
    : (s.call out stats c).2 = m.commit key source reached segment := by
  cases plans with
  | nextStages done => simp [Session.call, Session.nextStages, done.attempt]
  | @planIncrement count skip m key source reached segment tries done =>
      have live := hasSources_of_attempt done.attempt (by simp)
      have planned : s.planIncrement stats
          = (.ok ⟨segment.stages, segment.intermediateSets⟩,
              m.commit key source reached segment) := by
        rw [Session.planIncrement, tries.retry_eq, Session.retry.eq_def]
        simp [live, done.attempt]
      rw [Session.call, planned, collect]

theorem Steady.waits {P : Increment → Session → Prop} (steady : Steady P) {s m : Session}
    {out : Increment} (holds : P out s) (waits : s.Waits m)
    : P out m := by
  induction waits with
  | here => exact holds
  | prune before ih => exact steady.prune ih
  | refused before refused ih => exact steady.refused ih refused

end DataflowPlan.Session
