import DataflowPlan.Proofs.Graph.Valid
import Mathlib.Data.Set.Finite.Basic
import Mathlib.Logic.Relation

/-! Which graphs validation accepts.
A graph is well-formed if its names resolve, its atomics have the inputs of their kinds, some atomic
is a scan and no atomic comes to read what it makes itself. Validation accepts these graphs and no
others, in whatever order its counts are kept.
-/

namespace DataflowPlan

/-- The inputs are as the kind asks: none for a scan, one for an aggregate or a partition, two
different ones for a join, and at least one for any other atomic.
-/
def Atomic.FitsKind (a : Atomic) : Prop :=
  match a.kind with
  | .scan => a.inputs = []
  | .aggregate | .partition => ∃ input, a.inputs = [input]
  | .joinSets => ∃ left right, left ≠ right ∧ a.inputs = [left, right]
  | .other => a.inputs ≠ []

theorem Atomic.fitsKind_iff {a : Atomic}
    : a.FitsKind ↔ a.hasFitInputs = true ∧ (a.kind = .joinSets → a.inputs.Nodup) := by
  cases kind : a.kind with
  | scan => simp [FitsKind, hasFitInputs, kind]
  | aggregate => simp [FitsKind, hasFitInputs, kind, List.length_eq_one_iff]
  | partition => simp [FitsKind, hasFitInputs, kind, List.length_eq_one_iff]
  | other => simp [FitsKind, hasFitInputs, kind]
  | joinSets =>
      simp only [FitsKind, hasFitInputs, kind, beq_iff_eq, List.length_eq_two, forall_const]
      constructor
      · rintro ⟨left, right, differ, sides⟩
        exact ⟨⟨left, right, sides⟩, by simp [sides, differ]⟩
      · rintro ⟨⟨left, right, sides⟩, unique⟩
        exact ⟨left, right, by simpa [sides] using unique, sides⟩

namespace Graph

-----------------------------------------------------------------------------------------------
-- Cycles
-----------------------------------------------------------------------------------------------

/-- One atomic of the graph reads what another one makes. -/
def ReadsFrom (g : Graph) (reader maker : Atomic) : Prop :=
  reader ∈ g.atomics ∧ maker ∈ g.atomics ∧ maker.output ∈ reader.inputs

/-- No atomic reads what it makes itself, over one step or many. -/
def Acyclic (g : Graph) : Prop :=
  ∀ a, ¬ Relation.TransGen g.ReadsFrom a a

/-- A rank that falls with every read leaves no cycle. -/
theorem acyclic_of_rank {g : Graph} {rank : String → Nat}
    (falls : ∀ a ∈ g.atomics, ∀ input ∈ a.inputs, rank input < rank a.output)
    : g.Acyclic := by
  have lower : ∀ {a b}, Relation.TransGen g.ReadsFrom a b → rank b.output < rank a.output := by
    intro a b path
    induction path with
    | single read => exact falls a read.1 _ read.2.2
    | tail _ read before => exact Nat.lt_trans (falls _ read.1 _ read.2.2) before
  exact fun a cycle => Nat.lt_irrefl _ (lower cycle)

/-- Without a cycle, what holds of an atomic if it holds of all that it reads from holds of all.
Witness: paths of reads never return, and there are finitely many atomics.
-/
theorem Acyclic.induction {g : Graph} (acyclic : g.Acyclic) {motive : Atomic → Prop}
    (step : ∀ a ∈ g.atomics, (∀ b, g.ReadsFrom a b → motive b) → motive a)
    : ∀ a ∈ g.atomics, motive a := by
  let above (b a : { a // a ∈ g.atomics }) : Prop := Relation.TransGen g.ReadsFrom a.1 b.1
  have transitive : IsTrans _ above := ⟨fun _ _ _ near far => far.trans near⟩
  have irreflexive : Std.Irrefl above := ⟨fun a => acyclic a.1⟩
  have finite : Finite { a // a ∈ g.atomics } := g.atomics.finite_toSet
  have wellFounded := Finite.wellFounded_of_trans_of_irrefl above
  intro a member
  induction paths : (⟨a, member⟩ : { a // a ∈ g.atomics }) using wellFounded.induction
    generalizing a with
  | _ place ih =>
      subst paths
      exact step a member fun b read => ih ⟨b, read.2.1⟩ (.single read) b read.2.1 rfl

/-- A full order holds all tuple sets exactly if the graph has no cycle.
Witness: the places in the order are ranks; without a cycle, what an atomic reads stands in the
order before the atomic is asked for, so that it is in the order too.
-/
theorem FullOrder.length_eq_iff {g : Graph} {order : List String} (full : g.FullOrder order)
    (distinct : g.outputs.Nodup)
    (produced : ∀ a ∈ g.atomics, ∀ input ∈ a.inputs, input ∈ g.outputs)
    : order.length = g.atomics.length ↔ g.Acyclic := by
  constructor
  · intro all
    obtain ⟨rank, -, falls⟩ := full.exists_rank all
    exact acyclic_of_rank falls
  · intro acyclic
    have made : ∀ a ∈ g.atomics, a.output ∈ order := by
      refine acyclic.induction fun a member earlier => full.full a member fun input read => ?_
      obtain ⟨b, maker, rfl⟩ := List.mem_map.mp (produced a member input read)
      exact earlier b ⟨member, maker, read⟩
    have all : g.outputs ⊆ order := fun output member => by
      obtain ⟨a, inAtomics, rfl⟩ := List.mem_map.mp member
      exact made a inAtomics
    have atMost := (List.subperm_of_subset full.unique full.known).length_le
    have atLeast := (List.subperm_of_subset distinct all).length_le
    simpa [outputs] using Nat.le_antisymm atMost atLeast

-----------------------------------------------------------------------------------------------
-- Validation
-----------------------------------------------------------------------------------------------

/-- What a graph has to be for planning: outputs are different, every atomic names a known
computation and reads what atomics make, its inputs are as its kind asks, there is a scan, and no
reads form a cycle.
-/
structure WellFormed (g : Graph) : Prop where
  distinct : (g.atomics.map Atomic.output).Nodup
  known : ∀ a ∈ g.atomics, ∃ c, g.computations.get? a.computation = some c
  produced : ∀ a ∈ g.atomics, ∀ input ∈ a.inputs, ∃ maker ∈ g.atomics, maker.output = input
  fit : ∀ a ∈ g.atomics, a.FitsKind
  scanned : ∃ a ∈ g.atomics, a.kind = .scan
  acyclic : g.Acyclic

/-- The checks that come before the count. -/
def checkParts (g : Graph) : Except Error Unit := do
  match firstRepeated [] g.atomics with
  | some output => throw (.graph (.producedTwice output))
  | none => pure ()
  g.atomics.forM g.checkAtomic
  if g.scans.isEmpty then throw (.graph .noScan)

/-- Validation with the counts kept in any order; none if the count of tuple sets does not come to
its end, or comes to a count below zero.
-/
def validateIn? (g : Graph) (counts : Waiting) : Option (Except Error Unit) :=
  match g.checkParts with
  | .error error => some (.error error)
  | .ok () => do
    let made ← g.countMade? g.atomics.length counts counts.ready
    some (if made = g.atomics.length then .ok () else .error (.graph .cycle))

theorem validate_eq (g : Graph)
    : g.validate = g.checkParts >>= fun _ =>
        if g.isOrdered then .ok () else .error (.graph .cycle) := by
  rw [validate, checkParts]
  cases firstRepeated [] g.atomics with
  | some output => rfl
  | none =>
      cases g.atomics.forM g.checkAtomic with
      | error error => rfl
      | ok done => cases g.scans.isEmpty <;> cases g.isOrdered <;> rfl

theorem checkParts_eq_ok {g : Graph}
    : g.checkParts = .ok ()
      ↔ g.outputs.Nodup
        ∧ (∀ a ∈ g.atomics, g.checkAtomic a = .ok ())
        ∧ ∃ a ∈ g.atomics, a.kind = .scan := by
  have scanned : g.scans.isEmpty = false ↔ ∃ a ∈ g.atomics, a.kind = .scan := by
    simp [scans]
  rw [checkParts, ← scanned]
  cases repeated : firstRepeated [] g.atomics with
  | some output =>
      have clash : ¬ g.outputs.Nodup := fun distinct => by
        rw [firstRepeated_eq_none.mpr ⟨distinct, by simp⟩] at repeated
        simp at repeated
      simp [clash]
  | none =>
      have distinct : g.outputs.Nodup := (firstRepeated_eq_none.mp repeated).1
      rw [← Except.forM_eq_ok]
      cases g.atomics.forM g.checkAtomic with
      | error error => simp
      | ok done => cases g.scans.isEmpty <;> simp [distinct]

/-- Once the parts are in order, the count decides, in whatever order the counts are kept. -/
theorem exists_count {g : Graph} (parts : g.checkParts = .ok ()) {counts : Waiting}
    (perm : counts.Perm g.waiting)
    : ∃ made,
        g.countMade? g.atomics.length counts counts.ready = some made
        ∧ (made = g.atomics.length ↔ g.Acyclic) := by
  obtain ⟨distinct, checked, -⟩ := checkParts_eq_ok.mp parts
  obtain ⟨order, full, ends⟩ := exists_fullOrder distinct perm
  exact ⟨order.length, ends, full.length_eq_iff distinct
    fun a member => (checkAtomic_eq_ok.mp (checked a member)).2.1⟩

/-- The count of validation reaches all tuple sets exactly if the graph has no cycle. -/
theorem isOrdered_iff {g : Graph} (parts : g.checkParts = .ok ())
    : g.isOrdered = true ↔ g.Acyclic := by
  obtain ⟨made, ends, decides⟩ := exists_count parts (.refl _)
  rw [← decides, isOrdered, countMade_of_countMade? ends, beq_iff_eq]

theorem validate_eq_ok_iff (g : Graph) : g.validate = .ok () ↔ g.WellFormed := by
  rw [validate_eq]
  constructor
  · intro passed
    obtain ⟨⟨⟩, parts, passed⟩ := Except.bind_eq_ok.mp passed
    obtain ⟨distinct, checked, scanned⟩ := checkParts_eq_ok.mp parts
    have each := fun a member => checkAtomic_eq_ok.mp (checked a member)
    have ordered : g.isOrdered = true := by
      by_contra cyclic
      simp [cyclic] at passed
    exact {
      distinct
      known := fun a member => by
        obtain ⟨c, found⟩ := (each a member).1
        exact ⟨c, computation_eq_ok.mp found⟩
      produced := fun a member input read => List.mem_map.mp ((each a member).2.1 input read)
      fit := fun a member => Atomic.fitsKind_iff.mpr (each a member).2.2
      scanned
      acyclic := (isOrdered_iff parts).mp ordered
    }
  · intro wellFormed
    have parts : g.checkParts = .ok () := by
      refine checkParts_eq_ok.mpr ⟨wellFormed.distinct, fun a member => ?_, wellFormed.scanned⟩
      refine checkAtomic_eq_ok.mpr ⟨?_, ?_, Atomic.fitsKind_iff.mp (wellFormed.fit a member)⟩
      · obtain ⟨c, found⟩ := wellFormed.known a member
        exact ⟨c, computation_eq_ok.mpr found⟩
      · exact fun input read => List.mem_map.mpr (wellFormed.produced a member input read)
    rw [parts, Except.ok_bind, if_pos ((isOrdered_iff parts).mpr wellFormed.acyclic)]

theorem validateIn?_eq (g : Graph) {counts : Waiting} (perm : counts.Perm g.waiting)
    : g.validateIn? counts = some g.validate := by
  rw [validateIn?, validate_eq]
  cases parts : g.checkParts with
  | error error => rfl
  | ok done =>
      obtain ⟨made, ends, decides⟩ := exists_count parts perm
      have same : made = g.atomics.length ↔ g.isOrdered = true :=
        decides.trans (isOrdered_iff parts).symm
      simp [ends, same]

/-- Validation accepts exactly the well-formed graphs. It comes to the same verdict in whatever
order the counts are kept, and no count goes below zero, however often an atomic reads a tuple set.
-/
theorem validate_wellFormed (g : Graph)
    : (g.validate = .ok () ↔ g.WellFormed)
      ∧ ∀ counts : Waiting, counts.Perm g.waiting → g.validateIn? counts = some g.validate :=
  ⟨g.validate_eq_ok_iff, fun _ perm => g.validateIn?_eq perm⟩

/-- A step that reads one of two scans twice. -/
def readTwice : Graph :=
  .ofLists
    [.scan "scan_l" "db" "left", .scan "scan_r" "db" "right", .ofKind "merge" .selection,
      (Computation.ofKind "write" .write).setOutput "db" "out"]
    [.scan "l" "scan_l", .scan "r" "scan_r", ⟨"merged", ["l", "r", "l"], "merge", .other⟩,
      .apply "out" "merged" "write"]

theorem readTwice_validates
    : readTwice.waiting.reverse.Perm readTwice.waiting
      ∧ readTwice.validateIn? readTwice.waiting.reverse = some (.ok ())
      ∧ readTwice.WellFormed := by
  have passed : readTwice.validate = .ok () := by decide +kernel
  obtain ⟨accepts, anyOrder⟩ := validate_wellFormed readTwice
  have other := List.reverse_perm readTwice.waiting
  exact ⟨other, passed ▸ anyOrder _ other, accepts.mp passed⟩

end Graph

end DataflowPlan
