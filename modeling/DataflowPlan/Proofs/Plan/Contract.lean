import DataflowPlan.Proofs.Plan.Order

/-! What the check of a plan decides, for any plan whatsoever: it passes exactly if each stage can
come behind those before it, and otherwise it reports the first stage that cannot, and why.
-/

namespace DataflowPlan

/-- The stage that a violation of a plan's order names. -/
def Violation.stage? : Violation → Option StageId
  | .outOfOrder stage _ | .unwritten stage _ | .unbuilt stage _ => some stage
  | .incomplete _ _ | .notASource _ | .noActiveConsumer _ | .alreadyBuilt _ | .endless => none

/-- The fault of a stage behind others, the first one in the order of the checks: its number is not
above the last one, it reads a set that is neither written nor the user's, or it probes a hash set
that is not built.
-/
inductive Stage.Fault (stage : Stage) (before : List Stage) : Violation → Prop
  | number {last} (latest : before.getLast? = some last) (notAbove : ¬ last.id < stage.id)
    : stage.Fault before (.outOfOrder stage.id last.id)
  | source (above : ∀ last, before.getLast? = some last → last.id < stage.id)
    (unreadable : ¬ stage.source.ReadableAfter before)
    : stage.Fault before (.unwritten stage.id stage.source.key)
  | probe {built hashSet others} (above : ∀ last, before.getLast? = some last → last.id < stage.id)
    (readable : stage.source.ReadableAfter before)
    (probed : stage.probed = built ++ hashSet :: others)
    (first : ∀ earlier ∈ built, BuiltBy before earlier) (unbuilt : ¬ BuiltBy before hashSet)
    : stage.Fault before (.unbuilt stage.id hashSet)

theorem Stage.Fault.stage?_eq {stage : Stage} {before : List Stage} {violation : Violation}
    (fault : stage.Fault before violation)
    : violation.stage? = some stage.id := by
  cases fault <;> rfl

/-- A stage with a fault cannot come next. -/
theorem Stage.Fault.not_succeeds {stage : Stage} {before : List Stage} {violation : Violation}
    (fault : stage.Fault before violation)
    : ¬ stage.Succeeds before := by
  intro succeeds
  cases fault with
  | number latest notAbove => exact notAbove (succeeds.id _ latest)
  | source _ unreadable => exact unreadable succeeds.source
  | probe _ _ probed _ unbuilt => exact unbuilt (succeeds.probes _ (by simp [probed]))

/-- Each of the stages succeeds those before it and the ones that came first. -/
def SucceedAfter (first stages : List Stage) : Prop :=
  ∀ before stage later, stages = before ++ stage :: later → stage.Succeeds (first ++ before)

theorem succeedAfter_nil (first : List Stage) : SucceedAfter first [] := by
  intro before stage later whole
  simp at whole

theorem succeedAfter_cons {first rest : List Stage} {stage : Stage}
    : SucceedAfter first (stage :: rest)
      ↔ stage.Succeeds first ∧ SucceedAfter (first ++ [stage]) rest := by
  constructor
  · intro all
    refine ⟨by simpa using all [] stage rest rfl, fun before other later whole => ?_⟩
    simpa using all (stage :: before) other later (by simp [whole])
  · rintro ⟨here, others⟩ before other later whole
    cases before with
    | nil =>
        obtain ⟨rfl, -⟩ := List.cons.inj whole
        simpa using here
    | cons head before =>
        obtain ⟨rfl, split⟩ := List.cons.inj whole
        simpa using others before other later split

namespace Plan.Progress

/-- The check of a stage fails with its fault. -/
theorem fault_of_check {stages : List Stage} {stage : Stage} {error : Error}
    (failed : (after stages).check stage = .error error)
    : ∃ violation, error = .violation violation ∧ stage.Fault stages violation := by
  rw [check] at failed
  cases number : (after stages).checkId stage with
  | error cause =>
      simp only [number, Except.error_bind, Except.error.injEq] at failed
      subst failed
      rw [checkId, last_after] at number
      cases latest : stages.getLast? with
      | none => simp [latest] at number
      | some last =>
          simp only [latest, Option.map_some] at number
          split at number
          · simp at number
          · next notAbove =>
              exact ⟨_, (Except.error.inj number).symm, .number latest notAbove⟩
  | ok done =>
      have above := (checkId_after stages stage).mp number
      cases source : (after stages).checkSource stage with
      | error cause =>
          have unreadable : ¬ stage.source.ReadableAfter stages := fun readable => by
            simp [(checkSource_after _ _).mpr readable] at source
          simp only [number, source, Except.ok_bind, Except.error_bind, Except.error.injEq]
            at failed
          subst failed
          rw [checkSource] at source
          split at source
          · simp at source
          · exact ⟨_, (Except.error.inj source).symm, .source above unreadable⟩
      | ok done =>
          have readable := (checkSource_after stages stage).mp source
          simp only [number, source, Except.ok_bind, checkProbes] at failed
          cases unbuilt : stage.probed.find? (!(after stages).built.contains ·) with
          | none =>
              rw [unbuilt] at failed
              simp at failed
          | some hashSet =>
              rw [unbuilt, Except.error.injEq] at failed
              obtain ⟨missing, built, others, probed, first⟩ :=
                List.find?_eq_some_iff_append.mp unbuilt
              refine ⟨_, failed.symm, .probe above readable probed ?_ ?_⟩
              · exact fun earlier member => mem_built_after.mp (by simpa using first earlier member)
              · exact fun builds => by simp [mem_built_after.mpr builds] at missing

theorem checkAll_eq_ok {stages rest : List Stage}
    : (after stages).checkAll rest = .ok () ↔ SucceedAfter stages rest := by
  induction rest generalizing stages with
  | nil => simp [checkAll, succeedAfter_nil]
  | cons stage rest ih =>
      rw [checkAll, Except.bind_eq_ok, ← after_concat, succeedAfter_cons, ih, ← check_after]
      constructor
      · rintro ⟨⟨⟩, passed, others⟩
        exact ⟨passed, others⟩
      · rintro ⟨passed, others⟩
        exact ⟨(), passed, others⟩

/-- Stages in turn fail at the first one that has a fault.
Witness: induction on the stages; the check goes on only from a stage that passes.
-/
theorem exists_fault_of_checkAll {stages rest : List Stage} {error : Error}
    (failed : (after stages).checkAll rest = .error error)
    : ∃ before stage later violation,
        rest = before ++ stage :: later
        ∧ SucceedAfter stages before
        ∧ error = .violation violation
        ∧ stage.Fault (stages ++ before) violation := by
  induction rest generalizing stages with
  | nil => simp [checkAll] at failed
  | cons head rest ih =>
      rw [checkAll, ← after_concat] at failed
      cases passed : (after stages).check head with
      | error cause =>
          rw [passed, Except.error_bind] at failed
          obtain ⟨violation, same, fault⟩ := fault_of_check (passed.trans failed)
          exact ⟨[], head, rest, violation, rfl, succeedAfter_nil _, same, by simpa using fault⟩
      | ok done =>
          rw [passed, Except.ok_bind] at failed
          obtain ⟨before, stage, later, violation, split, others, same, fault⟩ := ih failed
          have here := (check_after _ _).mp passed
          exact ⟨head :: before, stage, later, violation, by simp [split],
            succeedAfter_cons.mpr ⟨here, others⟩, same, by simpa using fault⟩

end Plan.Progress

/-- The check of a plan passes exactly if every stage is numbered above the stage before it, reads
what is the user's or what an earlier stage wrote, and probes hash sets that earlier stages built.
It fails with the fault of the first stage of which this is not so.
-/
theorem Plan.checkOrder_decides (plan : Plan)
    : (plan.checkOrder = .ok ()
        ↔ ∀ before stage later,
            plan.stages = before ++ stage :: later → stage.Succeeds before)
      ∧ ∀ error,
          plan.checkOrder = .error error →
            ∃ before stage later violation,
              plan.stages = before ++ stage :: later
              ∧ (∀ earlier other rest,
                  before = earlier ++ other :: rest → other.Succeeds earlier)
              ∧ ¬ stage.Succeeds before
              ∧ stage.Fault before violation
              ∧ error = .violation violation
              ∧ violation.stage? = some stage.id := by
  refine ⟨@Progress.checkAll_eq_ok [] _, fun error failed => ?_⟩
  obtain ⟨before, stage, later, violation, split, passed, same, fault⟩ :=
    @Progress.exists_fault_of_checkAll [] _ _ failed
  exact ⟨before, stage, later, violation, split, passed, fault.not_succeeds, fault, same,
    fault.stage?_eq⟩

/-- A stage that reads what only it writes, with another such stage behind it. -/
def readsOwnSink : Plan where
  jobId := "job"
  stages :=
    [ .aggregation ⟨⟨0⟩, "job", .user "db" "rows", .intermediate "job" "sums" 64, "sum", true, none,
        none⟩,
      .broadcastBuild
        ⟨⟨1⟩, "job", .intermediate "job" "sums" 64, "job:hash", "sums", "both", "join", none⟩,
      .aggregation ⟨⟨4⟩, "job", .intermediate "job" "own" 64, .intermediate "job" "own" 64, "sum",
        true, none, none⟩,
      .broadcastBuild
        ⟨⟨3⟩, "job", .intermediate "job" "none" 64, "job:hash", "sums", "both", "join", none⟩ ]
  intermediateSets := []

theorem readsOwnSink_faults
    : readsOwnSink.checkOrder = .error (.violation (.unwritten ⟨4⟩ "job:own"))
      ∧ ∃ before stage later,
          readsOwnSink.stages = before ++ stage :: later
          ∧ stage.id = ⟨4⟩
          ∧ ¬ stage.Succeeds before
          ∧ stage.Fault before (.unwritten ⟨4⟩ "job:own") := by
  have failed : readsOwnSink.checkOrder = .error (.violation (.unwritten ⟨4⟩ "job:own")) := by
    decide +kernel
  obtain ⟨before, stage, later, violation, split, -, faulty, fault, same, named⟩ :=
    readsOwnSink.checkOrder_decides.2 _ failed
  obtain rfl := Error.violation.inj same
  exact ⟨failed, before, stage, later, split, (Option.some.inj named).symm, faulty, fault⟩

end DataflowPlan
