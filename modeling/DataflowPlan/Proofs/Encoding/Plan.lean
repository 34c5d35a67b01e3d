import DataflowPlan.Encoding.Plan
import DataflowPlan.Proofs.Encoding.Stage

/-! The JSON form of a plan loses nothing: its text is read as the plan again, and so no two lists
of stages have one text.
-/

namespace DataflowPlan

open Json

-----------------------------------------------------------------------------------------------
-- Stages in turn
-----------------------------------------------------------------------------------------------

theorem list?_stagesToJson {stages : List Stage} {outer : Nat} (fits : ∀ s ∈ stages, s.FitsWords)
    (room : outer + 2 ≤ Stage.highest)
    : (stagesToJson stages).list? (Stage.ofJsonUnder? outer) = some stages :=
  Value.list?_array fun s member => Stage.ofJsonUnder?_toJson (fits s member) room

theorem isPlain_stagesToJson {stages : List Stage} (fits : ∀ s ∈ stages, s.FitsWords)
    : (stagesToJson stages).IsPlain := by
  simpa [stagesToJson] using fun s member => Stage.isPlain_toJson (fits s member)

/-- No two lists of stages have one text.
Witness: the stages can be read from it.
-/
theorem eq_of_stagesText {stages others : List Stage} (fits : ∀ s ∈ stages, s.FitsWords)
    (fits' : ∀ s ∈ others, s.FitsWords)
    (same : (stagesToJson stages).compactText = (stagesToJson others).compactText)
    : stages = others := by
  have values : stagesToJson stages = stagesToJson others :=
    Value.eq_of_compactText (isPlain_stagesToJson fits) (isPlain_stagesToJson fits') same
  have read := @list?_stagesToJson stages 0 fits (by decide)
  rw [values, list?_stagesToJson fits' (by decide)] at read
  exact (Option.some.inj read).symm

-----------------------------------------------------------------------------------------------
-- Plans
-----------------------------------------------------------------------------------------------

namespace Plan

/-- All numbers of the plan's stages and sets fit a word. -/
@[mk_iff]
structure FitsWords (p : Plan) : Prop where
  stages : ∀ s ∈ p.stages, s.FitsWords
  intermediateSets : ∀ set ∈ p.intermediateSets, set.FitsWords

instance (p : Plan) : Decidable p.FitsWords :=
  decidable_of_iff' _ (fitsWords_iff p)

variable {p : Plan}

theorem ofJson?_toJson (fits : p.FitsWords) : ofJson? p.toJson = some p := by
  have stages := @list?_stagesToJson p.stages 2 fits.stages (by decide)
  have sets := Value.list?_array fun set member =>
    SetId.ofJson?_toJson (fits.intermediateSets set member)
  rw [ofJson?, toJson, Value.fields?_object fieldNames (by decide) rfl]
  simp [stages, sets]

theorem isPlain_toJson (fits : p.FitsWords) : p.toJson.IsPlain := by
  simpa [toJson, isPlain_stagesToJson fits.stages]
    using fun set member => SetId.isPlain_toJson (fits.intermediateSets set member)

/-- The text of a plan is read as that plan. -/
theorem parse?_render (fits : p.FitsWords) : parse? p.render = some p := by
  rw [parse?, render, Value.ofText?_compactText (isPlain_toJson fits), Option.bind_some,
    ofJson?_toJson fits]

end Plan

end DataflowPlan
