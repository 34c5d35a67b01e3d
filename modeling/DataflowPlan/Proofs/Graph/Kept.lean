import DataflowPlan.Proofs.Graph.Valid

/-! What planning keeps of a graph: the atomics, and of each computation all but where its output
goes and how it is joined. An output that has a set once is never sent elsewhere.
-/

namespace DataflowPlan

/-- The computation, with its output sent to a set if it had none, and a join strategy. -/
structure Computation.Derived (after before : Computation) : Prop where
  name : after.name = before.name
  kind : after.kind = before.kind
  usesCombiner : after.usesCombiner = before.usesCombiner
  kept
    : before.materializeOutput = true →
        after.materializeOutput = true ∧ after.set? = before.set?
  sets : before.set?.isSome → after.set?.isSome

namespace Computation

theorem Derived.refl (c : Computation) : c.Derived c :=
  ⟨rfl, rfl, rfl, fun keeps => ⟨keeps, rfl⟩, id⟩

theorem Derived.trans {last middle first : Computation} (later : last.Derived middle)
    (before : middle.Derived first)
    : last.Derived first := by
  refine ⟨later.name.trans before.name, later.kind.trans before.kind,
    later.usesCombiner.trans before.usesCombiner, ?_, fun names => later.sets (before.sets names)⟩
  intro keeps
  obtain ⟨keepsMiddle, sameMiddle⟩ := before.kept keeps
  obtain ⟨keepsLast, sameLast⟩ := later.kept keepsMiddle
  exact ⟨keepsLast, sameLast.trans sameMiddle⟩

theorem derived_setOutput {c : Computation} (unkept : c.materializeOutput = false)
    (database setName : String)
    : (c.setOutput database setName).Derived c :=
  ⟨rfl, rfl, rfl, fun keeps => absurd keeps (by simp [unkept]), fun _ => rfl⟩

theorem derived_setStrategy (c : Computation) (strategy : JoinStrategy)
    : (c.setStrategy strategy).Derived c :=
  ⟨rfl, rfl, rfl, fun keeps => ⟨keeps, rfl⟩, id⟩

end Computation

namespace Graph

/-- The graph with some of its computations derived from what they were. -/
structure Kept (after before : Graph) : Prop where
  atomics : after.atomics = before.atomics
  derived
    : ∀ name c,
        before.computations.get? name = some c →
          ∃ d, after.computations.get? name = some d ∧ d.Derived c

theorem Kept.refl (g : Graph) : g.Kept g :=
  ⟨rfl, fun _ c found => ⟨c, found, .refl c⟩⟩

theorem Kept.trans {last middle first : Graph} (later : last.Kept middle)
    (before : middle.Kept first)
    : last.Kept first := by
  refine ⟨later.atomics.trans before.atomics, ?_⟩
  intro name c found
  obtain ⟨d, foundMiddle, derived⟩ := before.derived name c found
  obtain ⟨e, foundLast, derived'⟩ := later.derived name d foundMiddle
  exact ⟨e, foundLast, derived'.trans derived⟩

theorem kept_modify {g : Graph} {name : String} {change : Computation → Computation}
    (derives : ∀ c, g.computations.get? name = some c → (change c).Derived c)
    : (g.modifyComputation name change).Kept g := by
  refine ⟨rfl, ?_⟩
  intro other c found
  rw [modifyComputation, Table.get?_modify]
  split
  · next same =>
      subst same
      exact ⟨change c, by rw [found]; rfl, derives c found⟩
  · exact ⟨c, found, .refl c⟩

/-- A change to a computation is seen there, and nowhere else. -/
theorem computation_modify {g : Graph} {name : String} {c : Computation}
    (found : g.computation name = .ok c) (changed : String) (change : Computation → Computation)
    : (g.modifyComputation changed change).computation name
        = .ok (if name = changed then change c else c) := by
  rw [computation_eq_ok, modifyComputation, Table.get?_modify]
  split
  · next same =>
      subst same
      rw [computation_eq_ok.mp found, Option.map_some]
  · exact computation_eq_ok.mp found

theorem of_computation_modify {g : Graph} {name changed : String} {c : Computation}
    {change : Computation → Computation}
    (found : (g.modifyComputation changed change).computation name = .ok c)
    : ∃ d, g.computation name = .ok d ∧ c = if name = changed then change d else d := by
  cases before : g.computation name with
  | ok d => exact ⟨d, rfl, Except.ok.inj (found.symm.trans (computation_modify before _ _))⟩
  | error error =>
      rw [computation_eq_ok, modifyComputation, Table.get?_modify] at found
      split at found
      · next same =>
          subst same
          obtain ⟨d, there, -⟩ := Option.map_eq_some_iff.mp found
          simp [computation_eq_ok.mpr there] at before
      · simp [computation_eq_ok.mpr found] at before

section Kept

variable {after before : Graph} {name : String} {c d : Computation}

theorem Kept.exists_derived (kept : after.Kept before) (found : before.computation name = .ok c)
    : ∃ d, after.computation name = .ok d ∧ d.Derived c := by
  obtain ⟨d, there, derived⟩ := kept.derived name c (computation_eq_ok.mp found)
  exact ⟨d, computation_eq_ok.mpr there, derived⟩

theorem Kept.derives (kept : after.Kept before) (found : before.computation name = .ok c)
    (there : after.computation name = .ok d)
    : d.Derived c := by
  obtain ⟨e, here, derived⟩ := kept.exists_derived found
  obtain rfl := Except.ok.inj (there.symm.trans here)
  exact derived

end Kept

end Graph

end DataflowPlan
