import DataflowPlan.Proofs.Analysis.Ending

/-! Failures of an analysis. A pipeline may fail for a set, a computation or a field that is
missing, but never with the error of an increment that was refused throughout.
-/

namespace DataflowPlan

/-- The error of an increment whose attempts were all refused. -/
def Error.IsStall : Error → Prop
  | .stalled _ _ => True
  | _ => False

/-- The step does not fail with a stall. -/
def Except.Unstalled {α : Type} (x : Except Error α) : Prop :=
  ∀ error, x = .error error → ¬ error.IsStall

namespace Except.Unstalled

variable {α β : Type}

theorem pure (a : α) : Unstalled (.ok a) := by
  intro error failed
  simp at failed

theorem error {found : Error} (other : ¬ found.IsStall)
    : Unstalled (Except.error found : Except Error α) := by
  intro error failed
  obtain rfl := Except.error.inj failed
  exact other

theorem bind {x : Except Error α} {f : α → Except Error β} (first : Unstalled x)
    (rest : ∀ a, Unstalled (f a))
    : Unstalled (x >>= f) := by
  intro error failed
  cases x with
  | error found =>
      rw [error_bind] at failed
      exact first error (by simpa using failed)
  | ok a => exact rest a error failed

theorem need (kind : StageKind) (field : String) (value : Option α)
    : Unstalled (DataflowPlan.need kind field value) := by
  cases value with
  | none => exact error not_false
  | some a => exact pure a

theorem computation (g : Graph) (name : String)
    : Unstalled (g.computation name) := by
  unfold Graph.computation
  split
  · exact pure _
  · exact error not_false

theorem sinkSet (c : Computation) : Unstalled c.sinkSet := by
  unfold Computation.sinkSet
  split
  · exact pure _
  · exact error not_false

theorem finish (d : TupleSetDraft) : Unstalled d.finish := by
  unfold TupleSetDraft.finish
  refine bind (need _ _ _) fun _ => bind (need _ _ _) fun _ => bind (need _ _ _) fun _ => ?_
  refine bind (need _ _ _) fun _ => bind (need _ _ _) fun _ => bind (need _ _ _) fun _ => ?_
  exact bind (need _ _ _) fun _ => pure _

end Except.Unstalled

namespace View

variable (v : View) (next : StageId) (draft : TupleSetDraft) (prev id : NodeId)

theorem output_unstalled : Except.Unstalled (v.output next draft prev id) := by
  unfold output
  refine .bind (.computation _ _) fun c => .bind (.sinkSet c) fun _ => ?_
  exact .bind (.finish _) fun _ => .pure _

theorem placement_unstalled (c : Computation) : Except.Unstalled (v.placement id c) := by
  unfold placement
  split
  · exact .bind (.sinkSet c) fun _ => .pure _
  · exact .bind (.computation _ _) fun _ => .pure _

theorem materialize_unstalled : Except.Unstalled (v.materialize next draft prev id) := by
  unfold materialize
  refine .bind (.computation _ _) fun c => .bind (placement_unstalled v id c) fun _ => ?_
  exact .bind (.finish _) fun _ => .pure _

theorem aggregatePlacement_unstalled (c : Computation)
    : Except.Unstalled (v.aggregatePlacement id c) := by
  unfold aggregatePlacement
  split
  · exact .bind (.sinkSet c) fun _ => .pure _
  · exact .bind (.sinkSet c) fun _ => .pure _
  · exact .pure _
  · exact .bind (placement_unstalled v id c) fun _ => .pure _

theorem aggregate_unstalled : Except.Unstalled (v.aggregate next draft prev id) := by
  unfold aggregate
  refine .bind (.computation _ _) fun c => ?_
  refine .bind (aggregatePlacement_unstalled v id c) fun _ => .bind (.finish _) fun _ => ?_
  refine .bind ?_ fun _ => .pure _
  unfold AggregationDraft.finish
  refine .bind (.need _ _ _) fun _ => .bind (.need _ _ _) fun _ => .bind (.need _ _ _) fun _ => ?_
  exact .bind (.need _ _ _) fun _ => .pure _

theorem partition_unstalled : Except.Unstalled (v.partition next draft prev id) := by
  unfold partition
  refine .bind (.computation _ _) fun c => ?_
  split
  · refine .bind (placement_unstalled v id c) fun _ => .bind (.pure _) fun _ => ?_
    exact .bind (.finish _) fun _ => .pure _
  · refine .bind (.sinkSet c) fun _ => .bind (.pure _) fun _ => ?_
    exact .bind (.finish _) fun _ => .pure _

theorem joinBuild_unstalled : Except.Unstalled (v.joinBuild next draft prev id) := by
  rw [joinBuild_eq]
  refine .bind (.computation _ _) fun c => .bind (.finish _) fun _ => ?_
  exact .bind (.computation _ _) fun _ => .pure _

theorem splitProbe_unstalled (hashSet : String)
    : Except.Unstalled (v.splitProbe next draft prev id hashSet) := by
  unfold splitProbe
  exact .bind (.computation _ _) fun _ => .bind (.finish _) fun _ => .pure _

end View

/-- The analysis fails with no other errors than those. -/
def Analysis.FailsOnly (P : Error → Prop) (a : Analysis) : Prop :=
  ∀ error, a.verdict = .failed error → P error

namespace Analysis

variable {P : Error → Prop}

theorem failsOnly_failed {next : StageId} {error : Error} (expected : P error)
    : FailsOnly P ⟨next, .failed error⟩ := by
  intro found failed
  obtain rfl := Verdict.failed.inj failed
  exact expected

theorem failsOnly_refused (next : StageId) : FailsOnly P ⟨next, .refused⟩ := by
  intro error failed
  simp at failed

theorem failsOnly_ofEnding {next : StageId} {made : Except Error Segment}
    (steps : ∀ error, made = .error error → P error)
    : FailsOnly P (ofEnding next made) := by
  cases made with
  | error error => exact failsOnly_failed (steps error rfl)
  | ok segment =>
      intro error failed
      simp [ofEnding] at failed

theorem failsOnly_mapSegment {a : Analysis} (fails : FailsOnly P a) (change : Segment → Segment)
    : FailsOnly P (a.mapSegment change) := by
  obtain ⟨reached, verdict⟩ := a
  cases verdict with
  | planned segment =>
      intro error failed
      simp [mapSegment] at failed
  | refused => exact fails
  | failed error => exact fails

/-- The analysis does not fail with a stall. -/
def Unstalled (a : Analysis) : Prop :=
  a.FailsOnly fun error => ¬ error.IsStall

end Analysis

namespace View

open Analysis

variable {v : View} {follow : Continuation}
  (continues : ∀ next draft prev id, (follow next draft prev id).Unstalled)

include continues

theorem passThrough_unstalled (next : StageId) (draft : TupleSetDraft) (id : NodeId)
    : (v.passThrough follow next draft id).Unstalled := by
  unfold passThrough
  split
  · exact failsOnly_failed not_false
  · exact failsOnly_mapSegment (continues _ _ _ _) _

theorem joinProbe_unstalled (next : StageId) (draft : TupleSetDraft) (prev id : NodeId)
    : (v.joinProbe follow next draft prev id).Unstalled := by
  unfold joinProbe
  split
  · exact failsOnly_failed not_false
  · exact continues _ _ _ _
  · exact failsOnly_ofEnding (materialize_unstalled _ _ _ _ _)

theorem join_unstalled (next : StageId) (draft : TupleSetDraft) (prev id : NodeId)
    : (v.join follow next draft prev id).Unstalled := by
  unfold join
  split
  · exact failsOnly_failed not_false
  · split
    · split
      · exact failsOnly_refused _
      · exact failsOnly_ofEnding (joinBuild_unstalled _ _ _ _ _)
    · exact joinProbe_unstalled continues _ _ _ _
    · split
      · exact failsOnly_mapSegment (joinProbe_unstalled continues _ _ _ _) _
      · next failed => exact failsOnly_failed (splitProbe_unstalled _ _ _ _ _ _ _ failed)

omit continues

theorem follow_unstalled (steps : Nat) (next : StageId) (draft : TupleSetDraft)
    (prev id : NodeId)
    : (v.follow steps next draft prev id).Unstalled := by
  induction steps generalizing next draft prev id with
  | zero => exact failsOnly_failed not_false
  | succ steps ih =>
      rw [View.follow]
      split
      · exact failsOnly_ofEnding (output_unstalled _ _ _ _ _)
      · exact passThrough_unstalled ih _ _ _
      · exact failsOnly_ofEnding (materialize_unstalled _ _ _ _ _)
      · exact failsOnly_ofEnding (aggregate_unstalled _ _ _ _ _)
      · exact failsOnly_ofEnding (partition_unstalled _ _ _ _ _)
      · exact join_unstalled ih _ _ _ _

/-- No analysis fails with a stall. -/
theorem analyze_unstalled (source : NodeId) (next : StageId)
    : (v.analyze source next).Unstalled := by
  unfold analyze
  split
  · exact failsOnly_failed not_false
  · exact passThrough_unstalled (follow_unstalled _) _ _ _

end View

end DataflowPlan
