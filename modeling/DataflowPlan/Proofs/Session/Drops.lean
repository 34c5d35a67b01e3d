import DataflowPlan.Proofs.Analysis.Deposits
import DataflowPlan.Proofs.Analysis.Supply
import DataflowPlan.Proofs.Session.OwnSets

/-! What stages drop. A stage drops its source only if that is the hash table of an aggregate, and
every such source was left by a stage that was planned before.
-/

namespace DataflowPlan

/-- Each of the stages drops only what one of those before it wrote. -/
def DropsWritten (stages : List Stage) : Prop :=
  ∀ before stage after,
    stages = before ++ stage :: after →
      ∀ key, stage.Drops key → ∃ earlier ∈ before, earlier.Writes key

theorem DropsWritten.concat {stages : List Stage} {stage : Stage} (holds : DropsWritten stages)
    (own : ∀ key, stage.Drops key → ∃ earlier ∈ stages, earlier.Writes key)
    : DropsWritten (stages ++ [stage]) := by
  intro before other after whole
  rcases List.eq_nil_or_concat' after with rfl | ⟨init, last, rfl⟩
  · obtain ⟨rfl, same⟩ := List.append_inj' whole rfl
    obtain rfl := List.singleton_inj.mp same
    exact own
  · have earlier : stages ++ [stage] = (before ++ other :: init) ++ [last] := by simp [whole]
    obtain ⟨rfl, -⟩ := List.append_inj' earlier rfl
    exact holds before other init rfl

/-- Stages that drop only what those before them all wrote may follow. -/
theorem DropsWritten.append {stages more : List Stage} (holds : DropsWritten stages)
    (own
      : ∀ stage ∈ more, ∀ key, stage.Drops key → ∃ earlier ∈ stages, earlier.Writes key)
    : DropsWritten (stages ++ more) := by
  induction more using List.reverseRecOn with
  | nil => simpa using holds
  | append_singleton more last ih =>
      rw [← List.append_assoc]
      have before := ih fun stage member => own stage (by simp [member])
      refine before.concat fun key drops => ?_
      obtain ⟨earlier, member, writes⟩ := own last (by simp) key drops
      exact ⟨earlier, List.mem_append_left _ member, writes⟩

namespace Session

variable {s : Session} {out : Increment}

/-- The stages so far drop only what they wrote, and so will those that read a hash table now. -/
structure Spends (out : Increment) (s : Session) : Prop where
  stages : DropsWritten out.stages
  sources
    : ∀ p set,
        (s.node p).sourceSet = some set →
          set.isAggregationResult = true → ∃ stage ∈ out.stages, stage.Writes set.key

/-- At the beginning no source reads a hash table. -/
theorem Beginning.spends {g : Graph} (beginning : s.Beginning g)
    : Spends .empty s := by
  refine ⟨by simp [DropsWritten, Increment.empty], ?_⟩
  intro p set isSource result
  obtain ⟨c, -, -, names⟩ := beginning.exists_scan isSource
  rw [Computation.plain_of_set? names] at result
  simp at result

/-- What a pipeline drops is the hash table that its source reads. -/
theorem Spends.commit (holds : Spends out s) {stats : Statistics} {skip : List String}
    {key : String} {source : NodeId} {reached : StageId} {segment : Segment}
    (done : s.Committed stats skip key source reached segment)
    : Spends (out.append ⟨segment.stages, segment.intermediateSets⟩)
        (s.commit key source reached segment) := by
  obtain ⟨set, consumer, others, path, inner, isSource, active, pipeline, rfl, rfl⟩ :=
    View.analyze_planned done.planned
  have own : ∀ stage ∈ inner.stages, ∀ other, stage.Drops other →
      ∃ earlier ∈ out.stages, earlier.Writes other := by
    rintro stage member _ ⟨dropped, consumed, rfl⟩
    obtain ⟨rfl, table⟩ := (pipeline.drops rfl).1 stage member dropped consumed
    exact holds.sources source dropped isSource table
  refine ⟨?_, ?_⟩
  · exact holds.stages.append own
  · intro p made isSource result
    rw [node_commit] at isSource
    rcases (inner.through source).node_apply s.topology p with same | ⟨new, here, changed⟩
    · rw [same, sourceSet_foldl] at isSource
      obtain ⟨stage, member, writes⟩ := holds.sources p made isSource result
      exact ⟨stage, List.mem_append_left _ member, writes⟩
    · rw [changed] at isSource
      obtain rfl := Option.some.inj isSource
      obtain ⟨-, -, leaves⟩ := pipeline.deposits.source p new here
      obtain ⟨stage, member, writes⟩ := leaves result
      exact ⟨stage, List.mem_append_right _ member, new, writes, rfl⟩

/-- In every session that a run leads to, stages drop only what earlier ones wrote. -/
theorem steady_spends : Steady Spends := by
  refine steady_of_commit (fun holds done => holds.commit done) ?_
    fun holds => ⟨holds.stages, holds.sources⟩
  intro out s holds key source
  refine ⟨holds.stages, fun p set isSource => ?_⟩
  rw [sourceSet_penalize] at isSource
  exact holds.sources p set isSource

end Session

end DataflowPlan
