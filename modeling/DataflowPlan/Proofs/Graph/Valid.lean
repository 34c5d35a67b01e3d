import DataflowPlan.Proofs.Except
import DataflowPlan.Proofs.Graph.Order

/-! What validation establishes of a graph, and what its construction establishes of any graph. -/

namespace DataflowPlan

/-- The atomic reads that tuple set and no other one. -/
def Atomic.ReadsOnly (a : Atomic) (input : String) : Prop :=
  ∀ other, other ∈ a.inputs ↔ other = input

namespace Graph

/-- A graph whose names resolve, whose atomics have the inputs of their kinds, and whose tuple sets
can all be made.
-/
structure Valid (g : Graph) : Prop where
  distinct : g.outputs.Nodup
  known : ∀ a ∈ g.atomics, ∃ c, g.computation a.computation = .ok c
  inputs : ∀ a ∈ g.atomics, ∀ input ∈ a.inputs, input ∈ g.outputs
  fit : ∀ a ∈ g.atomics, a.hasFitInputs = true
  sides : ∀ a ∈ g.atomics, a.kind = .joinSets → a.inputs.Nodup
  ordered : g.isOrdered = true

theorem computation_eq_ok {g : Graph} {name : String} {c : Computation}
    : g.computation name = .ok c ↔ g.computations.get? name = some c := by
  unfold computation
  cases g.computations.get? name <;> simp

/-- There is no repetition exactly if all outputs are new and different. -/
theorem firstRepeated_eq_none {seen : List String} {atomics : List Atomic}
    : firstRepeated seen atomics = none
      ↔ (atomics.map Atomic.output).Nodup ∧ ∀ a ∈ atomics, a.output ∉ seen := by
  induction atomics generalizing seen with
  | nil => simp [firstRepeated]
  | cons head rest ih =>
      rw [firstRepeated]
      split
      · next repeated =>
          have old : head.output ∈ seen := by simpa using repeated
          simp [old]
      · next fresh =>
          have headFresh : head.output ∉ seen := by simpa using fresh
          rw [ih]
          simp only [List.map_cons, List.nodup_cons, List.mem_map, List.mem_cons, not_or,
            forall_eq_or_imp, not_exists, not_and]
          constructor
          · rintro ⟨unique, outside⟩
            exact ⟨⟨fun a member => (outside a member).1, unique⟩, headFresh,
              fun a member => (outside a member).2⟩
          · rintro ⟨⟨apart, unique⟩, -, outside⟩
            exact ⟨unique, fun a member => ⟨apart a member, outside a member⟩⟩

/-- What the check of one atomic asks for. -/
theorem checkAtomic_eq_ok {g : Graph} {a : Atomic}
    : g.checkAtomic a = .ok ()
      ↔ (∃ c, g.computation a.computation = .ok c)
        ∧ (∀ input ∈ a.inputs, input ∈ g.outputs)
        ∧ a.hasFitInputs = true
        ∧ (a.kind = .joinSets → a.inputs.Nodup) := by
  rw [checkAtomic]
  cases found : g.computation a.computation with
  | error error => simp
  | ok c =>
      cases unknown : a.inputs.find? (!g.outputs.contains ·) with
      | some input =>
          have member := List.mem_of_find?_eq_some unknown
          have missing : input ∉ g.outputs := by simpa using List.find?_some unknown
          have outside : ¬ ∀ input ∈ a.inputs, input ∈ g.outputs :=
            fun all => missing (all input member)
          simp [outside]
      | none =>
          have inputs : ∀ input ∈ a.inputs, input ∈ g.outputs := by
            simpa using List.find?_eq_none.mp unknown
          by_cases fit : a.hasFitInputs = true
          · by_cases join : a.kind = .joinSets
            · obtain ⟨left, right, sides⟩ : ∃ left right, a.inputs = [left, right] := by
                simp only [Atomic.hasFitInputs, join, beq_iff_eq] at fit
                exact List.length_eq_two.mp fit
              simp only [sides] at inputs
              by_cases same : left = right <;> simp [fit, join, sides, same, inputs]
            · simpa [fit, join] using inputs
          · simp [fit]

/-- A validated graph is valid. -/
theorem valid_of_validate {g : Graph} (passed : g.validate = .ok ())
    : g.Valid := by
  rw [validate] at passed
  cases repeated : firstRepeated [] g.atomics with
  | some output => simp [repeated] at passed
  | none =>
      rw [repeated] at passed
      simp only [Except.pure_eq, Except.bind_eq_ok] at passed
      obtain ⟨⟨⟩, checked, passed⟩ := passed
      have each := fun a member => checkAtomic_eq_ok.mp (Except.forM_eq_ok.mp checked a member)
      have ordered : g.isOrdered = true := by
        by_contra cyclic
        by_cases empty : g.scans.isEmpty = true <;> simp [empty, cyclic] at passed
      exact {
        distinct := (firstRepeated_eq_none.mp repeated).1
        known := fun a member => (each a member).1
        inputs := fun a member => (each a member).2.1
        fit := fun a member => (each a member).2.2.1
        sides := fun a member => (each a member).2.2.2
        ordered
      }

/-- Outputs tell atomics of a valid graph apart. -/
theorem Valid.atomic_eq {g : Graph} (valid : g.Valid) {a b : Atomic} (left : a ∈ g.atomics)
    (right : b ∈ g.atomics) (same : a.output = b.output)
    : a = b :=
  List.inj_on_of_nodup_map valid.distinct left right same

/-- Every input of an atomic is made by an atomic. -/
theorem Valid.exists_producer {g : Graph} (valid : g.Valid) {a : Atomic} (member : a ∈ g.atomics)
    {input : String} (read : input ∈ a.inputs)
    : ∃ b ∈ g.atomics, b.output = input :=
  List.mem_map.mp (valid.inputs a member input read)

/-- Steps that list one tuple set read only that one. -/
theorem readsOnly_of_length {g : Graph}
    (one : ∀ a ∈ g.atomics, a.kind = .other → a.inputs.length = 1)
    : ∀ a ∈ g.atomics, a.kind = .other → ∃ input, a.ReadsOnly input := by
  intro a member other
  obtain ⟨input, only⟩ := List.length_eq_one_iff.mp (one a member other)
  exact ⟨input, fun other => by rw [only, List.mem_singleton]⟩

/-- Computations are filed under their own names. -/
def Named (g : Graph) : Prop :=
  ∀ name c, g.computations.get? name = some c → c.name = name

/-- What the computation that is filed under a name calls itself. -/
def ownName? (g : Graph) (name : String) : Option String :=
  (g.computations.get? name).map Computation.name

theorem Named.of_ownName? {g : Graph} (named : g.Named) {name own : String}
    (found : g.ownName? name = some own)
    : own = name := by
  obtain ⟨c, filed, rfl⟩ := Option.map_eq_some_iff.mp found
  exact named name c filed

/-- A change that keeps names keeps them wherever computations are filed. -/
theorem ownName?_modifyComputation {g : Graph} (changed name : String)
    {change : Computation → Computation} (keeps : ∀ c, (change c).name = c.name)
    : (g.modifyComputation changed change).ownName? name = g.ownName? name := by
  rw [ownName?, modifyComputation, Table.get?_modify]
  split
  · next same =>
      have names : Computation.name ∘ change = Computation.name := funext keeps
      rw [Option.map_map, names, same, ownName?]
  · rfl

/-- The graph with a computation renamed where it is filed. -/
def renamed (g : Graph) (name own : String) : Graph :=
  g.modifyComputation name fun c => { c with name := own }

theorem named_foldl_addComputation (computations : List Computation) {g : Graph} (named : g.Named)
    : (computations.foldl addComputation g).Named := by
  induction computations generalizing g with
  | nil => exact named
  | cons head rest ih =>
      refine ih ?_
      intro name c found
      rw [addComputation, Table.get?_insert] at found
      split at found
      · next same => rw [← Option.some.inj found, same]
      · exact named name c found

theorem computations_foldl_addAtomic (atomics : List Atomic) (g : Graph)
    : (atomics.foldl addAtomic g).computations = g.computations := by
  induction atomics generalizing g with
  | nil => rfl
  | cons head rest ih => exact ih (g.addAtomic head)

/-- A graph to which computations and atomics were added has its computations under their names. -/
theorem named_ofLists (computations : List Computation) (atomics : List Atomic)
    : (ofLists computations atomics).Named := by
  intro name c found
  rw [ofLists, computations_foldl_addAtomic] at found
  refine named_foldl_addComputation computations ?_ name c found
  intro name c found
  simp [empty] at found

/-- A change that keeps names keeps computations under their names. -/
theorem Named.modifyComputation {g : Graph} (named : g.Named) (name : String)
    {change : Computation → Computation} (keeps : ∀ c, (change c).name = c.name)
    : (g.modifyComputation name change).Named := by
  intro other c found
  rw [Graph.modifyComputation, Table.get?_modify] at found
  split at found
  · next same =>
      obtain ⟨old, here, rfl⟩ := Option.map_eq_some_iff.mp found
      rw [keeps, named name old here, same]
  · exact named other c found

end Graph

end DataflowPlan
