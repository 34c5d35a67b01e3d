import DataflowPlan.Proofs.Graph.Valid

/-! Join trees: graphs of scans, joins and steps of one input, in which no tuple set is read twice
and every join has a side without joins.
-/

namespace DataflowPlan.Graph

/-- The tuple set comes from a scan without a join on the way. -/
inductive JoinFree (g : Graph) : String → Prop
  | scan {a} (member : a ∈ g.atomics) (kind : a.kind = .scan)
    : g.JoinFree a.output
  | step {a input} (member : a ∈ g.atomics) (kind : a.kind = .other) (reads : a.ReadsOnly input)
    (before : g.JoinFree input)
    : g.JoinFree a.output

/-- Joins and steps over scans. Every tuple set is read at most once, and that of a join is; a step
that is not read on names the set that it writes.
-/
structure JoinTree (g : Graph) : Prop where
  kinds : ∀ a ∈ g.atomics, a.kind = .scan ∨ a.kind = .joinSets ∨ a.kind = .other
  single : ∀ a ∈ g.atomics, a.kind = .other → ∃ input, a.ReadsOnly input
  unshared : ∀ output, (g.consumersOf output).length ≤ 1
  free : ∀ a ∈ g.atomics, a.kind = .joinSets → ∃ input ∈ a.inputs, g.JoinFree input
  joinsRead : ∀ a ∈ g.atomics, a.kind = .joinSets → g.consumersOf a.output ≠ []
  kept
    : ∀ a ∈ g.atomics,
        a.kind = .other →
          g.consumersOf a.output = [] →
            ∃ c, g.computation a.computation = .ok c ∧ c.set?.isSome

/-- Where no tuple set stands among the inputs twice, none is read twice. -/
theorem length_consumersOf_le {g : Graph} (distinct : (g.atomics.flatMap Atomic.inputs).Nodup)
    (output : String)
    : (g.consumersOf output).length ≤ 1 := by
  rw [consumersOf]
  generalize g.atomics = atomics at distinct
  induction atomics with
  | nil => simp
  | cons head rest ih =>
      rw [List.flatMap_cons, List.nodup_append] at distinct
      obtain ⟨-, unique, apart⟩ := distinct
      rw [List.filter_cons]
      split
      · next here =>
          have alone : rest.filter (·.reads output) = [] := by
            refine List.filter_eq_nil_iff.mpr fun a member there => ?_
            simp only [Atomic.reads, List.contains_iff_mem] at here there
            exact apart output here output (List.mem_flatMap.mpr ⟨a, member, there⟩) rfl
          simp [alone]
      · exact ih unique

end DataflowPlan.Graph
