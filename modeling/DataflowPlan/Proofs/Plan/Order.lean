import DataflowPlan.Plan
import DataflowPlan.Proofs.Except
import Mathlib.Data.List.Induction
import Mathlib.Data.List.Basic

/-! The order of a plan, stage by stage: each stage is numbered above all earlier ones, reads what
one of them wrote or what is the user's, and probes what they built. It is enough to compare each
stage's number with that of the stage before it, as the check of a plan does. The check finds no
fault exactly if the stages are in that order.
-/

namespace DataflowPlan

/-- The stage writes a set of this key. -/
def Stage.Writes (stage : Stage) (key : String) : Prop :=
  ∃ sink, stage.sink? = some sink ∧ sink.key = key

/-- The set can be read after the stages: it is the user's, or one of them wrote it. -/
def SetId.ReadableAfter (set : SetId) (stages : List Stage) : Prop :=
  set.kind = .user ∨ ∃ stage ∈ stages, stage.Writes set.key

/-- One of the stages built the hash set. -/
def BuiltBy (stages : List Stage) (hashSet : String) : Prop :=
  ∃ stage ∈ stages, stage.built? = some hashSet

/-- The stage can come next: it finds what it reads and probes. -/
structure Stage.Follows (stage : Stage) (before : List Stage) : Prop where
  id : ∀ earlier ∈ before, earlier.id < stage.id
  source : stage.source.ReadableAfter before
  probes : ∀ hashSet ∈ stage.probed, BuiltBy before hashSet

/-- The stage can come next, as far as the numbers of it and of the last stage tell. -/
structure Stage.Succeeds (stage : Stage) (before : List Stage) : Prop where
  id : ∀ last, before.getLast? = some last → last.id < stage.id
  source : stage.source.ReadableAfter before
  probes : ∀ hashSet ∈ stage.probed, BuiltBy before hashSet

/-- Each of the stages follows those before it. -/
def InOrder (stages : List Stage) : Prop :=
  ∀ before stage after, stages = before ++ stage :: after → stage.Follows before

theorem SetId.ReadableAfter.append {set : SetId} {stages : List Stage}
    (readable : set.ReadableAfter stages) (more : List Stage)
    : set.ReadableAfter (stages ++ more) := by
  rcases readable with user | ⟨stage, member, writes⟩
  · exact .inl user
  · exact .inr ⟨stage, List.mem_append_left _ member, writes⟩

theorem BuiltBy.append {stages : List Stage} {hashSet : String} (built : BuiltBy stages hashSet)
    (more : List Stage)
    : BuiltBy (stages ++ more) hashSet := by
  obtain ⟨stage, member, builds⟩ := built
  exact ⟨stage, List.mem_append_left _ member, builds⟩

theorem inOrder_nil : InOrder [] := by
  intro before stage after whole
  simp at whole

theorem InOrder.left {stages more : List Stage} (ordered : InOrder (stages ++ more))
    : InOrder stages := by
  intro before stage after whole
  exact ordered before stage (after ++ more) (by simp [whole])

/-- Stages stay in order with one more that can come next. -/
theorem InOrder.concat {stages : List Stage} {stage : Stage} (ordered : InOrder stages)
    (follows : stage.Follows stages)
    : InOrder (stages ++ [stage]) := by
  intro before other after whole
  rcases List.eq_nil_or_concat' after with rfl | ⟨init, last, rfl⟩
  · obtain ⟨rfl, same⟩ := List.append_inj' whole rfl
    obtain rfl := List.singleton_inj.mp same
    exact follows
  · have earlier : stages ++ [stage] = (before ++ other :: init) ++ [last] := by simp [whole]
    obtain ⟨rfl, -⟩ := List.append_inj' earlier rfl
    exact ordered before other init rfl

/-- Above the last stage means above all of them, as they are in order. -/
theorem InOrder.follows_iff {stages : List Stage} (ordered : InOrder stages) {stage : Stage}
    : stage.Follows stages ↔ stage.Succeeds stages := by
  constructor
  · intro follows
    exact ⟨fun last found => follows.id last (List.mem_of_getLast? found), follows.source,
      follows.probes⟩
  · intro succeeds
    refine ⟨?_, succeeds.source, succeeds.probes⟩
    rcases List.eq_nil_or_concat' stages with rfl | ⟨init, last, rfl⟩
    · simp
    · have above := succeeds.id last (by simp)
      intro earlier member
      rcases List.mem_append.mp member with before | same
      · exact Nat.lt_trans ((ordered init last [] rfl).id earlier before) above
      · exact List.mem_singleton.mp same ▸ above

namespace Plan.Progress

/-- The progress after stages in turn. -/
def after (stages : List Stage) : Progress :=
  stages.foldl add start

theorem after_concat (stages : List Stage) (stage : Stage)
    : after (stages ++ [stage]) = (after stages).add stage := by
  simp [after]

theorem last_after (stages : List Stage)
    : (after stages).last = stages.getLast?.map Stage.id := by
  induction stages using List.reverseRecOn with
  | nil => rfl
  | append_singleton stages stage ih => simp [after_concat, add]

theorem mem_written_after {stages : List Stage} {key : String}
    : key ∈ (after stages).written ↔ ∃ stage ∈ stages, stage.Writes key := by
  induction stages using List.reverseRecOn with
  | nil => simp [after, start]
  | append_singleton stages stage ih =>
      simp only [after_concat, add, List.mem_append, ih, Option.mem_toList, Option.map_eq_some_iff,
        List.mem_singleton]
      constructor
      · rintro (writes | ⟨earlier, member, writes⟩)
        · exact ⟨stage, .inr rfl, writes⟩
        · exact ⟨earlier, .inl member, writes⟩
      · rintro ⟨earlier, member | rfl, writes⟩
        · exact .inr ⟨earlier, member, writes⟩
        · exact .inl writes

theorem mem_built_after {stages : List Stage} {hashSet : String}
    : hashSet ∈ (after stages).built ↔ BuiltBy stages hashSet := by
  induction stages using List.reverseRecOn with
  | nil => simp [after, start, BuiltBy]
  | append_singleton stages stage ih =>
      simp only [after_concat, add, List.mem_append, ih, Option.mem_toList]
      constructor
      · rintro (builds | built)
        · exact ⟨stage, by simp, builds⟩
        · exact built.append _
      · rintro ⟨earlier, member, builds⟩
        rcases List.mem_append.mp member with before | last
        · exact .inr ⟨earlier, before, builds⟩
        · exact .inl (List.mem_singleton.mp last ▸ builds)

theorem checkId_after (stages : List Stage) (stage : Stage)
    : (after stages).checkId stage = .ok ()
        ↔ ∀ last, stages.getLast? = some last → last.id < stage.id := by
  rw [checkId, last_after]
  cases stages.getLast? with
  | none => simp
  | some last =>
      dsimp only [Option.map_some]
      split <;> simp_all

theorem checkSource_after (stages : List Stage) (stage : Stage)
    : (after stages).checkSource stage = .ok () ↔ stage.source.ReadableAfter stages := by
  rw [SetId.ReadableAfter, ← mem_written_after, checkSource]
  split
  · next readable => simpa using readable
  · next unwritten => simpa using unwritten

theorem checkProbes_after (stages : List Stage) (stage : Stage)
    : (after stages).checkProbes stage = .ok ()
        ↔ ∀ hashSet ∈ stage.probed, BuiltBy stages hashSet := by
  simp only [← mem_built_after]
  rw [checkProbes]
  cases unbuilt : stage.probed.find? (!(after stages).built.contains ·) with
  | none => simpa using unbuilt
  | some hashSet =>
      have member := List.mem_of_find?_eq_some unbuilt
      have missing := List.find?_some unbuilt
      simp only [reduceCtorEq, false_iff]
      intro all
      simp [all hashSet member] at missing

/-- The check passes a stage exactly if it can come next. -/
theorem check_after (stages : List Stage) (stage : Stage)
    : (after stages).check stage = .ok () ↔ stage.Succeeds stages := by
  simp only [check, Except.bind_eq_ok, checkProbes_after]
  constructor
  · rintro ⟨⟨⟩, above, ⟨⟩, readable, built⟩
    exact ⟨(checkId_after _ _).mp above, (checkSource_after _ _).mp readable, built⟩
  · rintro ⟨above, readable, built⟩
    exact ⟨(), (checkId_after _ _).mpr above, (), (checkSource_after _ _).mpr readable, built⟩

/-- Stages that come next pass the check exactly if the order holds for all.
Witness: induction on the stages that come next.
-/
theorem checkAll_after {stages : List Stage} (ordered : InOrder stages) (rest : List Stage)
    : (after stages).checkAll rest = .ok () ↔ InOrder (stages ++ rest) := by
  induction rest generalizing stages with
  | nil => simpa [checkAll] using ordered
  | cons stage rest ih =>
      rw [checkAll, Except.bind_eq_ok, ← after_concat]
      constructor
      · rintro ⟨⟨⟩, passed, later⟩
        have follows := ordered.follows_iff.mpr ((check_after _ _).mp passed)
        have more := ordered.concat follows
        simpa using (ih more).mp later
      · intro whole
        have follows := whole stages stage rest rfl
        refine ⟨(), (check_after _ _).mpr (ordered.follows_iff.mp follows), ?_⟩
        exact (ih (ordered.concat follows)).mpr (by simpa using whole)

end Plan.Progress

/-- The check of a plan finds no fault exactly if its stages are in order. -/
theorem Plan.checkOrder_eq_ok_iff (plan : Plan)
    : plan.checkOrder = .ok () ↔ InOrder plan.stages :=
  Progress.checkAll_after inOrder_nil plan.stages

end DataflowPlan
