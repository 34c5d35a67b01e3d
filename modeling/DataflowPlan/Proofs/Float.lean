import DataflowPlan.Config

/-! Floats that are numbers. A float that is above another one is not at most as high, and of two
numbers one or the other holds. Whatever natural number is rounded to a float, it is a number.
-/

namespace DataflowPlan.Floats

open Float.Model Float.Model.UnpackedFloat

-----------------------------------------------------------------------------------------------
-- Comparison
-----------------------------------------------------------------------------------------------

/-- Comparing the other way round swaps the outcome. -/
theorem compare_swap (a b : UnpackedFloat) : b.compare a = (a.compare b).map Ordering.swap := by
  have magnitudes (e f : Int) (m n : Nat)
      : ((compare e f).then (compare m n)).swap = (compare f e).then (compare n m) := by
    rw [Ordering.swap_then, ← Std.OrientedCmp.eq_swap, ← Std.OrientedCmp.eq_swap]
  cases a with
  | notANumber => cases b <;> rfl
  | infinity s =>
      cases s <;> cases b with
      | infinity t => cases t <;> rfl
      | notANumber | zero | finite => rfl
  | zero s =>
      cases b with
      | infinity t | finite t => cases t <;> rfl
      | notANumber | zero => rfl
  | finite s m e =>
      cases s <;> cases b with
      | infinity t | zero t => cases t <;> rfl
      | notANumber => rfl
      | finite t n f =>
          -- only floats of one sign are told apart by how large they are
          cases t <;> first
            | rfl
            | exact congrArg some (magnitudes ..).symm
            | exact congrArg (fun order => some order.swap) (magnitudes ..).symm

/-- Only what is no number cannot be compared. -/
theorem compare_eq_none_iff (a b : UnpackedFloat)
    : a.compare b = none ↔ a.isNaN = true ∨ b.isNaN = true := by
  cases a with
  | notANumber => exact ⟨fun _ => .inl rfl, fun _ => rfl⟩
  | infinity s | zero s | finite s =>
      cases s <;> cases b with
      | notANumber => exact ⟨fun _ => .inr rfl, fun _ => rfl⟩
      | infinity t | zero t | finite t =>
          cases t <;> exact ⟨nofun, fun nan => nan.elim nofun nofun⟩

theorem lt_iff (x y : Float)
    : x < y ↔ x.toModel.unpack.compare y.toModel.unpack = some .lt := by
  change Float.lt x y = true ↔ _
  rw [Float.lt, decide_eq_true_eq]
  exact beq_iff_eq

theorem beq_iff (x y : Float)
    : (x == y) = true ↔ x.toModel.unpack.compare y.toModel.unpack = some .eq := by
  change (x.toModel.unpack.compare y.toModel.unpack == some .eq) = true ↔ _
  exact beq_iff_eq

theorem le_iff (x y : Float)
    : x ≤ y ↔ ∃ order ∈ x.toModel.unpack.compare y.toModel.unpack, order.isLE = true := by
  change Float.le x y = true ↔ _
  rw [Float.le, decide_eq_true_eq]
  exact Option.any_eq_true _ _

/-- A float that is above another one is not at most as high. -/
theorem not_le_of_lt {x y : Float} (above : x < y) : ¬ y ≤ x := by
  rw [lt_iff] at above
  rw [le_iff, compare_swap, above]
  simp

/-- Of two numbers one is at most as high as the other, or above it. -/
theorem le_iff_not_lt {x y : Float} (left : x.isNaN = false) (right : y.isNaN = false)
    : y ≤ x ↔ ¬ x < y := by
  constructor
  · exact fun below above => not_le_of_lt above below
  · intro notAbove
    rw [lt_iff] at notAbove
    rw [le_iff, compare_swap]
    have comparable := mt (compare_eq_none_iff x.toModel.unpack y.toModel.unpack).mp
    generalize x.toModel.unpack.compare y.toModel.unpack = outcome at notAbove comparable
    cases outcome with
    | none =>
        refine absurd rfl (comparable ?_)
        rintro (nan | nan)
        · exact absurd (nan.symm.trans left) (by simp)
        · exact absurd (nan.symm.trans right) (by simp)
    | some order =>
        cases order with
        | lt => exact absurd rfl notAbove
        | eq | gt => exact ⟨_, rfl, rfl⟩

theorem isNaN_of_compare {a b : UnpackedFloat} {order : Ordering}
    (outcome : a.compare b = some order)
    : a.isNaN = false ∧ b.isNaN = false := by
  have number : ¬ (a.isNaN = true ∨ b.isNaN = true) := by
    intro nan
    have none := (compare_eq_none_iff _ _).mpr nan
    rw [outcome] at none
    simp at none
  exact ⟨Bool.eq_false_iff.mpr fun nan => number (.inl nan),
    Bool.eq_false_iff.mpr fun nan => number (.inr nan)⟩

theorem isNaN_of_lt {x y : Float} (above : x < y) : x.isNaN = false ∧ y.isNaN = false :=
  isNaN_of_compare ((lt_iff x y).mp above)

theorem isNaN_of_le {x y : Float} (above : x ≤ y) : x.isNaN = false ∧ y.isNaN = false := by
  obtain ⟨order, outcome, -⟩ := (le_iff x y).mp above
  exact isNaN_of_compare outcome

theorem isNaN_of_beq {x y : Float} (same : (x == y) = true) : x.isNaN = false ∧ y.isNaN = false :=
  isNaN_of_compare ((beq_iff x y).mp same)

-----------------------------------------------------------------------------------------------
-- Rounding
-----------------------------------------------------------------------------------------------

theorem isNaN_ite {c : Prop} [Decidable c] {u w : UnpackedFloat} (left : u.isNaN = false)
    (right : w.isNaN = false)
    : (if c then u else w).isNaN = false := by
  rw [apply_ite UnpackedFloat.isNaN, left, right, ite_self]

theorem isNaN_dite {c : Prop} [Decidable c] {u : c → UnpackedFloat} {w : ¬ c → UnpackedFloat}
    (left : ∀ h, (u h).isNaN = false) (right : ∀ h, (w h).isNaN = false)
    : (dite c u w).isNaN = false := by
  by_cases h : c
  · rw [dif_pos h]
    exact left h
  · rw [dif_neg h]
    exact right h

/-- Only bits with the largest exponent and some mantissa are no number. -/
theorem isNaN_unpack (bits : BitVec Format.binary64.numBits)
    (number : unpackExponent bits ≠ -1#11 ∨ unpackMantissa bits = 0#52)
    : (unpack Format.binary64 bits).isNaN = false := by
  unfold UnpackedFloat.unpack
  by_cases largest : unpackExponent bits = -1#11
  · rw [if_pos largest, if_pos (number.resolve_left fun ordinary => ordinary largest)]
    rfl
  · rw [if_neg largest]
    by_cases least : unpackExponent bits = 0#11
    · rw [if_pos least]
      exact isNaN_dite (fun _ => rfl) fun _ => rfl
    · rw [if_neg least]
      rfl

theorem isNaN_packComponents (sign : Sign) (exponent : BitVec 11) (mantissa : BitVec 52)
    (number : exponent ≠ -1#11 ∨ mantissa = 0#52)
    : (unpack Format.binary64 (packComponents Format.binary64 sign exponent mantissa)).isNaN
      = false := by
  refine isNaN_unpack _ ?_
  rw [unpackExponent_packComponents, unpackMantissa_packComponents]
  exact number

/-- What is a number stays one when it is packed into bits. -/
theorem isNaN_pack {u : UnpackedFloat} (number : u.isNaN = false)
    : (Float.Model.pack u).isNaN = false := by
  change (unpack Format.binary64 (UnpackedFloat.pack Format.binary64 u)).isNaN = false
  cases u with
  | notANumber => exact absurd number.symm Bool.false_ne_true
  | infinity sign => exact isNaN_packComponents sign _ _ (.inr rfl)
  | zero sign => exact isNaN_packComponents sign _ _ (.inr rfl)
  | finite sign mantissa exponent positive =>
      unfold UnpackedFloat.pack
      dsimp only
      split
      · exact isNaN_packComponents sign _ _ (.inr rfl)
      · next small =>
          split
          · refine isNaN_packComponents sign _ _ (.inl fun special => small ?_)
            have bits := congrArg BitVec.toNat special
            have ones : (-1#11).toNat = 2047 := by decide
            rw [BitVec.toNat_ofNat, ones] at bits
            exact Nat.succ_le_succ (bits ▸ Nat.mod_le _ _)
          · exact isNaN_packComponents sign _ _ (.inl (by decide))

/-- Rounding comes to a number. -/
theorem isNaN_roundWithAccuracy (spec : Format) (sign : Sign) (mantissa : Nat) (exponent : Int)
    (accuracy : Accuracy)
    : (roundWithAccuracy spec sign mantissa exponent accuracy).isNaN = false := by
  unfold roundWithAccuracy
  exact isNaN_dite (fun _ => rfl) fun _ => rfl

theorem isNaN_normalize (spec : Format) (mantissa exponent : Int) (sign : Sign)
    : (UnpackedFloat.normalize spec mantissa exponent sign).isNaN = false := by
  unfold UnpackedFloat.normalize
  split
  · exact isNaN_roundWithAccuracy ..
  · rfl
  · exact isNaN_roundWithAccuracy ..

/-- A number times a finite one is a number. -/
theorem isNaN_mul_finite {u : UnpackedFloat} (number : u.isNaN = false) (sign : Sign)
    (mantissa : Nat) (exponent : Int) (positive : 0 < mantissa)
    : (UnpackedFloat.mul Format.binary64 u (.finite sign mantissa exponent positive)).isNaN
      = false := by
  cases u with
  | notANumber => exact absurd number.symm Bool.false_ne_true
  | infinity s | zero s => rfl
  | finite s m e p => exact isNaN_roundWithAccuracy ..

/-- The float next to a natural number is a number. -/
theorem isNaN_ofNat (n : Nat) : (Float.ofNat n).isNaN = false := by
  change (Float.ofScientific n false 0).isNaN = false
  have one : (Float.exactlyRepresentablePowersOfTen[0]).toModel.unpack
      = .finite .positive (2 ^ 52) (-52) (by decide) := by
    rfl
  unfold Float.ofScientific
  split
  · have whole : (UInt64.toFloat n.toUInt64).isNaN = false := isNaN_pack (isNaN_normalize ..)
    refine isNaN_pack ?_
    rw [one]
    exact isNaN_mul_finite whole ..
  · refine isNaN_pack ?_
    change (UnpackedFloat.ofScientific Format.binary64 n 0).isNaN = false
    unfold UnpackedFloat.ofScientific
    refine isNaN_dite (fun _ => rfl) fun _ => isNaN_ite rfl (isNaN_ite rfl ?_)
    -- without an exponent nothing is divided
    rw [if_pos (Int.le_refl 0)]
    exact isNaN_mul_finite rfl ..

end DataflowPlan.Floats
