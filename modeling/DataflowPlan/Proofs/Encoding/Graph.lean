import DataflowPlan.Encoding.Graph
import DataflowPlan.Proofs.Json.Record

/-! The JSON form of a graph loses nothing: its text is read as the graph again, whatever names,
kinds and numbers it holds.
-/

namespace DataflowPlan

open Json

namespace ComputationKind

@[simp]
theorem ofJson?_name (kind : ComputationKind) : ofJson? (.text kind.name) = some kind := by
  cases kind <;> rfl

end ComputationKind

namespace AtomicKind

@[simp]
theorem ofJson?_name (kind : AtomicKind) : ofJson? (.text kind.name) = some kind := by
  cases kind <;> rfl

end AtomicKind

namespace JoinStrategy

theorem ofJson?_name (strategy : JoinStrategy)
    : ofJson? (.text strategy.name) = some strategy := by
  cases strategy <;> rfl

end JoinStrategy

namespace AllocatorPolicy

@[simp]
theorem ofJson?_name (policy : AllocatorPolicy) : ofJson? (.text policy.name) = some policy := by
  cases policy <;> rfl

@[simp]
theorem ofTagged?_name (policy : AllocatorPolicy)
    : ofTagged? (.text policy.name) = some policy := by
  cases policy <;> rfl

end AllocatorPolicy

-----------------------------------------------------------------------------------------------
-- Records
-----------------------------------------------------------------------------------------------

namespace Atomic

theorem ofJson?_toJson (a : Atomic) : ofJson? a.toJson = some a := by
  rw [ofJson?, toJson, Value.fields?_object fieldNames (by decide +kernel) rfl]
  simp

theorem isPlain_toJson (a : Atomic) : a.toJson.IsPlain := by
  simp [toJson]

end Atomic

namespace Computation

/-- The number of nodes to collect on fits a word. -/
def FitsWords (c : Computation) : Prop :=
  c.nodesToCollect ≤ Decimal.maxWord

instance (c : Computation) : Decidable c.FitsWords :=
  inferInstanceAs (Decidable (c.nodesToCollect ≤ Decimal.maxWord))

theorem ofJson?_toJson {c : Computation} (fits : c.FitsWords) : ofJson? c.toJson = some c := by
  have strategy : (Value.optional (fun s => .text (JoinStrategy.name s)) c.joinStrategy).optional?
      JoinStrategy.ofJson? = some c.joinStrategy :=
    Value.optional?_optional (fun _ => Value.noConfusion) fun s _ => s.ofJson?_name
  have word := Value.word?_natural fits
  rw [ofJson?, toJson, Value.fields?_object fieldNames (by decide +kernel) rfl]
  simp [strategy, word]

theorem isPlain_toJson {c : Computation} (fits : c.FitsWords) : c.toJson.IsPlain := by
  have word : c.nodesToCollect ≤ Decimal.maxWord := fits
  simp [toJson, word]

end Computation

namespace Graph

/-- All numbers of the graph fit a word. -/
def FitsWords (g : Graph) : Prop :=
  ∀ c ∈ g.computations.values, c.FitsWords

instance (g : Graph) : Decidable g.FitsWords :=
  inferInstanceAs (Decidable (∀ c ∈ g.computations.values, c.FitsWords))

theorem ofJson?_toJson {g : Graph} (fits : g.FitsWords) : ofJson? g.toJson = some g := by
  have atomics := Value.list?_array fun a (_ : a ∈ g.atomics) => Atomic.ofJson?_toJson a
  obtain ⟨entries, computations, table⟩ := Option.map_eq_some_iff.mp
    (Value.members?_entries fun c member => Computation.ofJson?_toJson (fits c member))
  rw [ofJson?, toJson, Value.fields?_object fieldNames (by decide +kernel) rfl]
  simp [atomics, computations, table]

theorem isPlain_toJson {g : Graph} (fits : g.FitsWords) : g.toJson.IsPlain := by
  have computations :=
    Value.isPlain_entries fun c member => Computation.isPlain_toJson (fits c member)
  simp [toJson, Atomic.isPlain_toJson, computations]

/-- The text of a graph is read as that graph. -/
theorem ofText?_compactText {g : Graph} (fits : g.FitsWords)
    : (Value.ofText? g.toJson.compactText).bind ofJson? = some g := by
  rw [Value.ofText?_compactText (isPlain_toJson fits), Option.bind_some, ofJson?_toJson fits]

end Graph

end DataflowPlan
