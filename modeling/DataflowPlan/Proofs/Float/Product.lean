import DataflowPlan.Proofs.Float.Rounding

/-! Products. A number that is not negative does not get smaller by a factor of at least 1, and the
product is a number unless zero is multiplied by infinity.
-/

namespace DataflowPlan.Floats

open Float.Model Float.Model.UnpackedFloat

/-- What the float 1 is made of. -/
def one : UnpackedFloat := .finite .positive (2 ^ 52) (-52) (by decide)

theorem unpack_one : (1.0 : Float).toModel.unpack = one := by
  rfl

theorem unpack_zero : (0.0 : Float).toModel.unpack = .zero .positive := by
  rfl

theorem canonical_one : Canonical (2 ^ 52) (-52) := ⟨by decide, by decide, .inl le_rfl⟩

theorem value_one : value (2 ^ 52) (-52) = 1 := by
  norm_num [value]

theorem place_finite_le {m n : Nat} {e f : Int} (left : 0 < m) (right : 0 < n)
    : place (.finite .positive m e left) ≤ place (.finite .positive n f right)
        ↔ toLex (e, m) ≤ toLex (f, n) := by
  simp only [place, Prod.Lex.toLex_le_toLex, lt_irrefl, false_or, true_and, Int.ofNat_le]

/-- A number that is not negative is zero, finite or infinite. -/
theorem cases_of_zero_le {u : UnpackedFloat} (number : u.isNaN = false)
    (nonnegative : place (.zero .positive) ≤ place u)
    : (∃ sign, u = .zero sign) ∨ (∃ m e positive, u = .finite .positive m e positive)
      ∨ u = .infinity .positive := by
  cases u with
  | notANumber => exact absurd number (by decide)
  | zero s => exact .inl ⟨s, rfl⟩
  | infinity s =>
      cases s with
      | positive => exact .inr (.inr rfl)
      | negative => exact absurd nonnegative (by decide)
  | finite s m e positive =>
      cases s with
      | positive => exact .inr (.inl ⟨m, e, positive, rfl⟩)
      | negative => simp [place, Prod.Lex.toLex_le_toLex] at nonnegative

/-- A number of at least 1 is infinite, or its mantissa is full. -/
theorem cases_of_one_le {x : Float} (least : 1.0 ≤ x)
    : (∃ m e positive,
          x.toModel.unpack = .finite .positive m e positive
          ∧ 2 ^ 52 ≤ m
          ∧ 1 ≤ value m e)
      ∨ x.toModel.unpack = .infinity .positive := by
  obtain ⟨-, number⟩ := isNaN_of_le least
  have above := (le_iff_place rfl number).mp least
  rw [unpack_one] at above
  have nonnegative : place (.zero .positive) ≤ place x.toModel.unpack :=
    (by decide : place (.zero .positive) ≤ place one).trans above
  rcases cases_of_zero_le number nonnegative with ⟨s, zero⟩ | ⟨m, e, positive, finite⟩ | infinite
  · rw [zero] at above
    exact absurd above (by cases s <;> decide)
  · rw [finite, one, place_finite_le, Prod.Lex.toLex_le_toLex] at above
    have canonical : Canonical m e := canonical_of_unpack finite
    have full : 2 ^ 52 ≤ m := by
      rcases above with larger | ⟨-, full⟩
      · refine canonical.full.resolve_right fun bottom => ?_
        dsimp only at larger
        omega
      · exact full
    refine .inl ⟨m, e, positive, finite, full, ?_⟩
    calc 1 = value (2 ^ 52) (-52) := value_one.symm
      _ ≤ value m e := by
          unfold value
          have exponents : -52 ≤ e := above.elim le_of_lt fun same => same.1.le
          gcongr
          · norm_num
  · exact .inr infinite

/-- Rounding a value that is not below some float comes to a float that is not below it either. -/
theorem place_le_round {mantissa n : Nat} {exponent g : Int} (wide : 2 ^ 52 ≤ mantissa)
    (canonical : Canonical n g) (positive : 0 < n) (below : value n g ≤ value mantissa exponent)
    : place (.finite .positive n g positive)
        ≤ place (Float.Model.pack
            (roundWithAccuracy Format.binary64 .positive mantissa exponent .exact)).unpack := by
  obtain ⟨rounded, f, some, same, fits, above⟩ :=
    exists_round wide canonical positive below .positive
  rw [same]
  rcases unpack_pack_finite fits .positive some with finite | infinite
  · rw [finite, place_finite_le]
    exact above
  · rw [infinite]
    simp [place, Prod.Lex.toLex_le_toLex]

theorem unpack_mul {x y : Float} {u v : UnpackedFloat} (left : x.toModel.unpack = u)
    (right : y.toModel.unpack = v)
    : (x * y).toModel.unpack
        = (Float.Model.pack (UnpackedFloat.mul Format.binary64 u v)).unpack :=
  left ▸ right ▸ rfl

/-- The product with a factor of at least 1: zero stays zero, if the factor is finite, and what is
above zero stays at least where it was.
-/
theorem mul_cases {x factor : Float} (nonnegative : 0.0 ≤ x) (least : 1.0 ≤ factor)
    : (∃ s t,
          x.toModel.unpack = .zero s
          ∧ factor.isInf = false
          ∧ (x * factor).toModel.unpack = .zero t)
      ∨ (∃ s,
          x.toModel.unpack = .zero s
          ∧ factor.isInf = true
          ∧ (x * factor).toModel.unpack = .notANumber)
      ∨ place (.zero .positive) < place x.toModel.unpack
        ∧ place x.toModel.unpack ≤ place (x * factor).toModel.unpack
        ∧ (x * factor).isNaN = false := by
  obtain ⟨zeroNumber, number⟩ := isNaN_of_le nonnegative
  have above := (le_iff_place zeroNumber number).mp nonnegative
  have nan : (x * factor).isNaN = (x * factor).toModel.unpack.isNaN := rfl
  have infinite : factor.isInf = factor.toModel.unpack.isInf := rfl
  rw [nan, infinite]
  rcases cases_of_zero_le number above with ⟨s, left⟩ | ⟨m, e, positive, left⟩ | left <;>
    rcases cases_of_one_le least with ⟨n, f, some, right, full, one⟩ | right <;>
    rw [unpack_mul left right, left, right]
  · exact .inl ⟨s, _, rfl, rfl, unpack_pack_zero _⟩
  · exact .inr (.inl ⟨s, rfl, rfl, unpack_pack_notANumber⟩)
  · refine .inr (.inr ⟨by simp [place, Prod.Lex.toLex_lt_toLex], ?_, ?_⟩)
    · refine place_le_round (Nat.le_trans full (Nat.le_mul_of_pos_left n positive))
        (canonical_of_unpack left) positive ?_
      rw [value_mul]
      exact le_mul_of_one_le_right (by unfold value; positivity) one
    · exact isNaN_pack (isNaN_roundWithAccuracy ..)
  · have product : (Float.Model.pack (UnpackedFloat.mul Format.binary64
        (.finite .positive m e positive) (.infinity .positive))).unpack = .infinity .positive :=
      unpack_pack_infinity .positive
    rw [product]
    refine .inr (.inr ⟨?_, ?_, rfl⟩)
    · simp [place, Prod.Lex.toLex_lt_toLex]
    · simp [place, Prod.Lex.toLex_le_toLex]
  · have product : (Float.Model.pack (UnpackedFloat.mul Format.binary64 (.infinity .positive)
        (.finite .positive n f some))).unpack = .infinity .positive :=
      unpack_pack_infinity .positive
    rw [product]
    exact .inr (.inr ⟨by decide, le_rfl, rfl⟩)
  · have product : (Float.Model.pack (UnpackedFloat.mul Format.binary64 (.infinity .positive)
        (.infinity .positive))).unpack = .infinity .positive :=
      unpack_pack_infinity .positive
    rw [product]
    exact .inr (.inr ⟨by decide, le_rfl, rfl⟩)

/-- The product is no number only if zero is multiplied by infinity. -/
theorem isNaN_mul_iff {x factor : Float} (nonnegative : 0.0 ≤ x) (least : 1.0 ≤ factor)
    : (x * factor).isNaN = true ↔ (x == 0.0) = true ∧ factor.isInf = true := by
  have nan : (x * factor).isNaN = (x * factor).toModel.unpack.isNaN := rfl
  rw [beq_iff_place (isNaN_of_le nonnegative).2 rfl, unpack_zero]
  rcases mul_cases nonnegative least with ⟨s, t, zero, finite, product⟩
    | ⟨s, zero, infinite, product⟩ | ⟨above, -, number⟩
  · rw [nan, product, finite]
    exact iff_of_false Bool.false_ne_true fun both => Bool.false_ne_true both.2
  · rw [nan, product, zero]
    exact iff_of_true rfl ⟨rfl, infinite⟩
  · rw [number]
    exact iff_of_false Bool.false_ne_true fun both => above.ne both.1.symm

/-- A factor of at least 1 makes no number smaller that is not negative. -/
theorem le_mul {x factor : Float} (nonnegative : 0.0 ≤ x) (least : 1.0 ≤ factor)
    (number : (x * factor).isNaN = false)
    : x ≤ x * factor := by
  rw [le_iff_place (isNaN_of_le nonnegative).2 number]
  rcases mul_cases nonnegative least with ⟨s, t, zero, -, product⟩ | ⟨s, -, -, product⟩
    | ⟨-, larger, -⟩
  · rw [zero, product]
    exact le_rfl
  · have nan : (x * factor).isNaN = (x * factor).toModel.unpack.isNaN := rfl
    rw [nan, product] at number
    exact absurd number.symm Bool.false_ne_true
  · exact larger

theorem value_shiftLeft (mantissa amount : Nat)
    : value (mantissa <<< amount) (-amount) = mantissa := by
  unfold value
  rw [Nat.shiftLeft_eq, Nat.cast_mul, Nat.cast_pow, Nat.cast_two, zpow_neg, zpow_natCast,
    mul_assoc, mul_inv_cancel₀ (by positivity), mul_one]

/-- An integer of 64 bits other than 0 is not below 1 as a float. -/
theorem one_le_toFloat {n : UInt64} (positive : 0 < n.toNat) : 1.0 ≤ n.toFloat := by
  have number : n.toFloat.isNaN = false := isNaN_pack (isNaN_normalize ..)
  have sign : compare (n.toNat : Int) 0 = .gt :=
    Int.compare_eq_gt.mpr (Int.natCast_pos.mpr positive)
  have log : n.toNat.log2 < 64 := (Nat.log2_lt positive.ne').mpr n.toNat_lt
  rw [le_iff_place rfl number, unpack_one]
  change _ ≤ place (Float.Model.pack
    (UnpackedFloat.normalize Format.binary64 (n.toNat : Int) 0 .positive)).unpack
  unfold UnpackedFloat.normalize
  rw [sign]
  dsimp only
  unfold UnpackedFloat.round decreaseExponent
  dsimp only
  simp only [targetExponent_eq, Int.toNat_natCast, Int.zero_sub]
  refine place_le_round ?_ canonical_one (by decide) ?_
  · rw [Nat.shiftLeft_eq]
    calc 2 ^ 52 ≤ 2 ^ (n.toNat.log2 + (-target n.toNat 0).toNat) := by
          refine Nat.pow_le_pow_right (by decide) ?_
          unfold target
          omega
      _ = 2 ^ n.toNat.log2 * 2 ^ (-target n.toNat 0).toNat := Nat.pow_add ..
      _ ≤ n.toNat * 2 ^ (-target n.toNat 0).toNat :=
          Nat.mul_le_mul_right _ (Nat.log2_self_le positive.ne')
  · rw [value_one, value_shiftLeft]
    exact_mod_cast positive

/-- The float next to a natural number other than 0 is not below 1. -/
theorem one_le_ofNat {n : Nat} (positive : 0 < n) : 1.0 ≤ Float.ofNat n := by
  have number : (Float.ofScientific n false 0).isNaN = false := isNaN_ofNat n
  change 1.0 ≤ Float.ofScientific n false 0
  unfold Float.ofScientific at number ⊢
  by_cases small : n < 2 ^ 53 ∧ 0 ≤ 22
  · rw [dif_pos small] at number ⊢
    have whole : n.toUInt64.toNat = n :=
      UInt64.toNat_ofNat_of_lt' (small.1.trans (by decide))
    have base : 1.0 ≤ n.toUInt64.toFloat := one_le_toFloat (by rw [whole]; exact positive)
    have power : 1.0 ≤ Float.exactlyRepresentablePowersOfTen[0] := by decide
    exact le_trans base (le_mul (le_trans (by decide) base) power number)
  · rw [dif_neg small] at number ⊢
    rw [le_iff_place rfl number, unpack_one]
    change _ ≤ place (Float.Model.pack (UnpackedFloat.ofScientific Format.binary64 n 0)).unpack
    unfold UnpackedFloat.ofScientific
    rw [dif_neg positive.ne', if_neg (by decide), if_neg (by simp), if_pos (Int.le_refl 0),
      UnpackedFloat.mul]
    have power : 10 ^ (0 : Int).toNat = 1 := by decide
    rw [power]
    refine place_le_round ?_ canonical_one (by decide) ?_
    · rw [Nat.mul_one, Nat.shiftLeft_eq]
      exact Nat.le_trans (by decide) (Nat.le_mul_of_pos_left _ positive)
    · have unit : value 1 0 = 1 := by norm_num [value]
      rw [value_one, value_mul, value_shiftLeft, unit, mul_one]
      exact_mod_cast positive

theorem zero_le_ofNat (n : Nat) : 0.0 ≤ Float.ofNat n := by
  cases n with
  | zero => decide
  | succ n => exact le_trans (by decide) (one_le_ofNat n.succ_pos)

theorem ofNat_beq_zero_iff (n : Nat) : (Float.ofNat n == 0.0) = true ↔ n = 0 := by
  constructor
  · intro zero
    by_contra nonzero
    have above := one_le_ofNat (Nat.pos_of_ne_zero nonzero)
    rw [le_iff_place rfl (isNaN_ofNat n), (beq_iff_place (isNaN_ofNat n) rfl).mp zero] at above
    exact absurd above (by decide)
  · rintro rfl
    decide

end DataflowPlan.Floats
