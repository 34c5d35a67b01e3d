import DataflowPlan.Proofs.Float
import Mathlib

/-! The order of floats. Whatever is a number has a place in one linear order, and comparing two
numbers compares their places.
-/

namespace DataflowPlan.Floats

open Float.Model Float.Model.UnpackedFloat

-----------------------------------------------------------------------------------------------
-- Places
-----------------------------------------------------------------------------------------------

/-- The place of a number among all numbers: finite ones of one sign by exponent, then by mantissa.
Both zeros have one place.
-/
def place : UnpackedFloat → Int ×ₗ Int ×ₗ Int
  | .infinity .negative => toLex (-2, toLex (0, 0))
  | .finite .negative mantissa exponent _ => toLex (-1, toLex (-exponent, -mantissa))
  | .zero _ | .notANumber => toLex (0, toLex (0, 0))
  | .finite .positive mantissa exponent _ => toLex (1, toLex (exponent, mantissa))
  | .infinity .positive => toLex (2, toLex (0, 0))

theorem compare_toLex {α β : Type} [LinearOrder α] [LinearOrder β] (a c : α) (b d : β)
    : compare (toLex (a, b)) (toLex (c, d)) = (compare a c).then (compare b d) :=
  rfl

theorem compare_neg (i j : Int) : compare (-i) (-j) = (compare i j).swap := by
  rw [Int.compare_swap, Int.compare_eq_ite_lt, Int.compare_eq_ite_lt]
  simp only [Int.neg_lt_neg_iff]

theorem compare_natCast (m n : Nat) : compare (m : Int) n = compare m n := by
  rw [Int.compare_eq_ite_lt, Nat.compare_eq_ite_lt]
  simp only [Int.ofNat_lt]

/-- Comparing numbers compares their places. -/
theorem compare_eq_place {a b : UnpackedFloat} (left : a.isNaN = false) (right : b.isNaN = false)
    : a.compare b = some (compare (place a) (place b)) := by
  cases a with
  | notANumber => exact absurd left (by decide)
  | infinity s =>
      cases s <;> cases b with
      | notANumber => exact absurd right (by decide)
      | infinity t | finite t => cases t <;> rfl
      | zero => rfl
  | zero s =>
      cases b with
      | notANumber => exact absurd right (by decide)
      | infinity t | finite t => cases t <;> rfl
      | zero => rfl
  | finite s m e =>
      cases s <;> cases b with
      | notANumber => exact absurd right (by decide)
      | infinity t | zero t => cases t <;> rfl
      | finite t n f =>
          cases t <;> first
            | rfl
            | simp [UnpackedFloat.compare, place, compare_toLex, compare_neg, compare_natCast,
                Ordering.swap_then]

-----------------------------------------------------------------------------------------------
-- Comparisons
-----------------------------------------------------------------------------------------------

section Comparisons

variable {x y : Float} (left : x.isNaN = false) (right : y.isNaN = false)

include left right

theorem lt_iff_place : x < y ↔ place x.toModel.unpack < place y.toModel.unpack := by
  rw [lt_iff, compare_eq_place left right, Option.some_inj, compare_lt_iff_lt]

theorem beq_iff_place : (x == y) = true ↔ place x.toModel.unpack = place y.toModel.unpack := by
  rw [beq_iff, compare_eq_place left right, Option.some_inj, compare_eq_iff_eq]

theorem le_iff_place : x ≤ y ↔ place x.toModel.unpack ≤ place y.toModel.unpack := by
  rw [le_iff_not_lt right left, lt_iff_place right left, not_lt]

end Comparisons

theorem le_trans {x y z : Float} (first : x ≤ y) (second : y ≤ z) : x ≤ z := by
  obtain ⟨left, middle⟩ := isNaN_of_le first
  obtain ⟨-, right⟩ := isNaN_of_le second
  rw [le_iff_place left right]
  exact ((le_iff_place left middle).mp first).trans ((le_iff_place middle right).mp second)

theorem lt_of_le_of_lt {x y z : Float} (first : x ≤ y) (second : y < z) : x < z := by
  obtain ⟨left, middle⟩ := isNaN_of_le first
  obtain ⟨-, right⟩ := isNaN_of_lt second
  rw [lt_iff_place left right]
  exact ((le_iff_place left middle).mp first).trans_lt ((lt_iff_place middle right).mp second)

end DataflowPlan.Floats
