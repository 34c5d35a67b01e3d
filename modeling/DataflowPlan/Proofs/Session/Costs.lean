import DataflowPlan.Proofs.Analysis.Costs
import DataflowPlan.Proofs.Session.Registry

/-! What planning sees of statistics: the costs of the sets that its sources read. Statistics that
agree on them lead to the same increment and the same session.
-/

namespace DataflowPlan.Session

/-- The statistics agree on the cost of every set that a node of the session reads. -/
def CostsAlike (s : Session) (stats other : Statistics) : Prop :=
  ∀ p set, (s.node p).sourceSet = some set → other.costOf set = stats.costOf set

variable {s : Session} {stats other : Statistics}

theorem CostsAlike.penalize (alike : s.CostsAlike stats other) (key : String) (source : NodeId)
    : (s.penalize key source).CostsAlike stats other := by
  intro p set isSource
  rw [sourceSet_penalize] at isSource
  exact alike p set isSource

theorem CostsAlike.prune (alike : s.CostsAlike stats other)
    : s.prune.CostsAlike stats other :=
  alike

variable (alike : s.CostsAlike stats other)

include alike

theorem CostsAlike.pick (skip : List String) : s.pick other skip = s.pick stats skip := by
  have cost : ∀ id, (s.node id).cost other = (s.node id).cost stats := by
    intro id
    unfold PhysicalNode.cost
    cases isSource : (s.node id).sourceSet with
    | none => rfl
    | some set => exact alike id set isSource
  have rank : s.rank other skip = s.rank stats skip := by
    funext key id
    rw [Session.rank, Session.rank, rankingCost, rankingCost, cost]
  have better : s.better other skip = s.better stats skip := by
    funext best source
    unfold Session.better
    rw [rank]
  rw [Session.pick, Session.pick, better]

theorem CostsAlike.analyze (source : NodeId) (next : StageId)
    : (s.view other).analyze source next = (s.view stats).analyze source next :=
  View.analyze_withStats (v := s.view stats) source next fun set isSource =>
    .of_eq (alike source set isSource).symm

theorem CostsAlike.attempt (skip : List String) : s.attempt other skip = s.attempt stats skip := by
  simp only [Session.attempt, alike.pick, alike.analyze]

/-- Retrying comes out the same with both statistics.
Witness: induction on the refusals that are left; a refusal moves no set.
-/
theorem CostsAlike.retry (left refusals : Nat) (skip : List String)
    : Session.retry other left refusals skip s = Session.retry stats left refusals skip s := by
  induction left generalizing refusals skip s with
  | zero =>
      unfold Session.retry
      rw [alike.attempt]
  | succ left ih =>
      unfold Session.retry
      rw [alike.attempt]
      split
      · rfl
      · split
        · rfl
        · rfl
        · rfl
        · next refused =>
            obtain ⟨source, -, -, rfl⟩ := refused_of_attempt refused
            exact ih (alike.penalize _ source) _ _

theorem CostsAlike.planIncrement : s.planIncrement other = s.planIncrement stats :=
  alike.prune.retry _ _ _

end DataflowPlan.Session
