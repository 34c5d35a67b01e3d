import DataflowPlan.Proofs.Float.Order

/-! Rounding. A float has one mantissa and exponent, and rounding never takes a value below a
float that it was not below before.
-/

namespace DataflowPlan.Floats

open Float.Model Float.Model.UnpackedFloat

/-- The one mantissa and exponent of a float: all bits are used unless the exponent is the least. -/
structure Canonical (mantissa : Nat) (exponent : Int) : Prop where
  fits : mantissa < 2 ^ 53
  least : -1074 ≤ exponent
  full : 2 ^ 52 ≤ mantissa ∨ exponent = -1074

/-- What a mantissa and an exponent stand for. -/
def value (mantissa : Nat) (exponent : Int) : ℚ := mantissa * 2 ^ exponent

theorem value_mul (m n : Nat) (e f : Int) : value (m * n) (e + f) = value m e * value n f := by
  unfold value
  rw [Nat.cast_mul, zpow_add₀ (by norm_num), mul_mul_mul_comm]

-----------------------------------------------------------------------------------------------
-- Packing
-----------------------------------------------------------------------------------------------

theorem toNat_append_one (mantissa : BitVec 52)
    : (1#1 ++ mantissa).toNat = 2 ^ 52 + mantissa.toNat := by
  rw [BitVec.toNat_append, ← Nat.shiftLeft_add_eq_or_of_lt mantissa.isLt]
  rfl

/-- What is read from bits is canonical. -/
theorem canonical_of_unpack {bits : BitVec Format.binary64.numBits} {sign : Sign}
    {mantissa : Nat} {exponent : Int} {positive : 0 < mantissa}
    (read : unpack Format.binary64 bits = .finite sign mantissa exponent positive)
    : Canonical mantissa exponent := by
  have small := (@unpackMantissa Format.binary64 bits).isLt
  unfold UnpackedFloat.unpack at read
  dsimp only at read
  split at read
  · split at read <;> cases read
  · split at read
    · next least =>
        split at read
        · cases read
        · cases read
          rw [least]
          exact ⟨small.trans (by decide), by decide, .inr (by decide)⟩
    · next ordinary =>
        cases read
        have above : (@unpackExponent Format.binary64 bits).toNat ≠ 0 :=
          fun zero => ordinary (BitVec.eq_of_toNat_eq zero)
        have whole := toNat_append_one (@unpackMantissa Format.binary64 bits)
        have bias : (Format.binary64.exponentBias : Int) = 1023 := by decide
        refine ⟨?_, ?_, .inl ?_⟩
        · rw [whole]
          exact Nat.add_lt_add_left small (2 ^ 52)
        · rw [bias]
          change -1074 ≤ _ - ((1023 : Int) + 52)
          omega
        · rw [whole]
          exact Nat.le_add_right _ _

theorem unpackSign_packComponents (sign : Sign) (exponent : BitVec 11) (mantissa : BitVec 52)
    : unpackSign (packComponents Format.binary64 sign exponent mantissa) = sign.toBitVec := by
  refine BitVec.eq_of_getLsbD_eq fun i bound => ?_
  obtain rfl : i = 0 := by omega
  change (((sign.toBitVec ++ exponent ++ mantissa).extractLsb 63 63).cast _).getLsbD 0 = _
  rw [BitVec.getLsbD_cast, BitVec.getLsbD_extractLsb, BitVec.getLsbD_append,
    BitVec.getLsbD_append]
  simp

theorem ofBitVec_toBitVec (sign : Sign) : Sign.ofBitVec sign.toBitVec = sign := by
  cases sign <;> rfl

theorem unpack_pack_infinity (sign : Sign)
    : (Float.Model.pack (.infinity sign)).unpack = .infinity sign := by
  cases sign <;> rfl

theorem unpack_pack_zero (sign : Sign) : (Float.Model.pack (.zero sign)).unpack = .zero sign := by
  cases sign <;> rfl

theorem unpack_pack_notANumber : (Float.Model.pack .notANumber).unpack = .notANumber := by
  rfl

theorem unpack_normal (sign : Sign) {biased : BitVec 11} (special : biased ≠ -1#11)
    (least : biased ≠ 0#11) (rest : BitVec 52) {mantissa : Nat} {exponent : Int}
    (positive : 0 < mantissa) (whole : mantissa = 2 ^ 52 + rest.toNat)
    (unbiased : exponent = biased.toNat - 1075)
    : unpack Format.binary64 (packComponents Format.binary64 sign biased rest)
        = .finite sign mantissa exponent positive := by
  subst whole unbiased
  unfold UnpackedFloat.unpack
  simp only [unpackMantissa_packComponents, unpackExponent_packComponents,
    unpackSign_packComponents, ofBitVec_toBitVec, special, least, if_false, toNat_append_one]
  rfl

theorem unpack_subnormal (sign : Sign) {mantissa : Nat} (positive : 0 < mantissa)
    (small : mantissa < 2 ^ 52)
    : unpack Format.binary64
        (packComponents Format.binary64 sign 0#11 (BitVec.ofNat 52 mantissa))
        = .finite sign mantissa (-1074) positive := by
  have whole : (BitVec.ofNat 52 mantissa).toNat = mantissa := by
    rw [BitVec.toNat_ofNat, Nat.mod_eq_of_lt small]
  have nonzero : BitVec.ofNat 52 mantissa ≠ 0#52 := by
    intro zero
    rw [zero] at whole
    exact positive.ne whole
  have special : ¬ 0#11 = -1#11 := by decide
  unfold UnpackedFloat.unpack
  simp only [unpackMantissa_packComponents, unpackExponent_packComponents,
    unpackSign_packComponents, ofBitVec_toBitVec, special, nonzero, if_false, if_true,
    dite_false, whole]
  rfl

/-- What is canonical is read from its bits again, unless it is too large for them. -/
theorem unpack_pack_finite {mantissa : Nat} {exponent : Int}
    (canonical : Canonical mantissa exponent) (sign : Sign) (positive : 0 < mantissa)
    : (Float.Model.pack (.finite sign mantissa exponent positive)).unpack
        = .finite sign mantissa exponent positive
      ∨ (Float.Model.pack (.finite sign mantissa exponent positive)).unpack = .infinity sign := by
  have bias : (Format.binary64.exponentBias : Int) = 1023 := by decide
  obtain ⟨fits, least, full⟩ := canonical
  change unpack Format.binary64 (UnpackedFloat.pack Format.binary64 _) = _
    ∨ unpack Format.binary64 (UnpackedFloat.pack Format.binary64 _) = _
  unfold UnpackedFloat.pack
  dsimp only
  rw [bias]
  split
  · exact .inr (unpack_pack_infinity sign)
  · next large =>
      left
      have small : (exponent + 1023 + 52).toNat + 1 < 2048 := Nat.not_le.mp large
      split
      · next normal =>
          have log : mantissa.log2 = 52 := Nat.succ.inj normal
          have upper : 2 ^ 52 ≤ mantissa := ((Nat.log2_eq_iff positive.ne').mp log).1
          have bits : (BitVec.ofNat 11 (exponent + 1023 + 52).toNat).toNat
              = (exponent + 1023 + 52).toNat := by
            rw [BitVec.toNat_ofNat]
            exact Nat.mod_eq_of_lt (by omega)
          have ones : (-1#11).toNat = 2047 := by decide
          refine unpack_normal sign ?_ ?_ _ positive ?_ ?_
          · intro special
            have same := congrArg BitVec.toNat special
            rw [ones] at same
            exact absurd (bits.symm.trans same) (by omega)
          · intro zero
            have same := congrArg BitVec.toNat zero
            exact absurd (bits.symm.trans same) (by change _ ≠ 0; omega)
          · rw [BitVec.toNat_ofNat]
            omega
          · refine Eq.trans ?_ (congrArg (fun n : Nat => (n : Int) - 1075) bits).symm
            omega
      · next subnormal =>
          have below : mantissa < 2 ^ 52 := by
            by_contra upper
            refine subnormal (congrArg Nat.succ ?_)
            exact (Nat.log2_eq_iff positive.ne').mpr ⟨Nat.not_lt.mp upper, fits⟩
          obtain rfl := full.resolve_left (Nat.not_le.mpr below)
          exact unpack_subnormal sign positive below

-----------------------------------------------------------------------------------------------
-- Rounding
-----------------------------------------------------------------------------------------------

/-- The exponent to which a mantissa and an exponent are shifted. -/
def target (mantissa : Nat) (exponent : Int) : Int := max (mantissa.log2 + exponent - 52) (-1074)

theorem targetExponent_eq (mantissa : Nat) (exponent : Int)
    : Format.binary64.targetExponent (totalExponent mantissa exponent)
        = target mantissa exponent := by
  unfold Format.targetExponent totalExponent target
  have least : Format.binary64.minExponent = -1074 := by decide
  have bits : (Format.binary64.mantissaBits : Int) = 53 := by decide
  rw [least, bits]
  congr 1
  omega

theorem mantissa_shift (extended : ExtendedMantissa) (amount : Nat)
    : (extended >>> amount).mantissa = extended.mantissa / 2 ^ amount := by
  change (amount.repeat ExtendedMantissa.shiftRightOne extended).mantissa = _
  induction amount with
  | zero => simp [Nat.repeat]
  | succ amount ih =>
      rw [Nat.repeat, ExtendedMantissa.shiftRightOne, ih, Nat.div_div_eq_div_mul, Nat.pow_succ]

/-- Rounding adds at most one. -/
theorem le_roundedMantissa (extended : ExtendedMantissa)
    : extended.mantissa ≤ extended.roundedMantissa
      ∧ extended.roundedMantissa ≤ extended.mantissa + 1 := by
  obtain ⟨mantissa, round, sticky⟩ := extended
  cases round <;> cases sticky <;>
    simp only [ExtendedMantissa.roundedMantissa, ExtendedMantissa.accuracy,
      Accuracy.roundToNearestEven] <;> omega

theorem shift_eq (mantissa : Nat) (exponent : Int)
    : shiftToTargetExponent Format.binary64 mantissa exponent .exact
        = ((⟨mantissa, false, false⟩ : ExtendedMantissa)
              >>> (target mantissa exponent - exponent).toNat,
            exponent + (target mantissa exponent - exponent).toNat) := by
  unfold shiftToTargetExponent shiftToExponent
  rw [targetExponent_eq]
  rfl

theorem shift_fits {mantissa : Nat} {exponent : Int} (fits : mantissa < 2 ^ 53)
    (least : -1074 ≤ exponent)
    : shiftToTargetExponent Format.binary64 mantissa exponent .exact
        = (⟨mantissa, false, false⟩, exponent) := by
  have log : mantissa.log2 ≤ 52 := by
    by_cases zero : mantissa = 0
    · simp [zero]
    · exact Nat.lt_succ_iff.mp ((Nat.log2_lt zero).mpr fits)
  have none : (target mantissa exponent - exponent).toNat = 0 := by
    unfold target
    omega
  rw [shift_eq, none]
  exact congrArg _ (Int.add_zero exponent)

theorem shift_overflow {exponent : Int} (least : -1074 ≤ exponent)
    : shiftToTargetExponent Format.binary64 (2 ^ 53) exponent .exact
        = (⟨2 ^ 52, false, false⟩, exponent + 1) := by
  have one : (target (2 ^ 53) exponent - exponent).toNat = 1 := by
    unfold target
    rw [Nat.log2_two_pow]
    omega
  rw [shift_eq, one]
  rfl

/-- What is left of a mantissa after the shift, with the new exponent, is not below any float that
the whole was not below.
-/
theorem le_shifted {mantissa n : Nat} {exponent g : Int} (canonical : Canonical n g)
    (below : value n g ≤ value mantissa exponent) {amount : Nat}
    (shifted : exponent + amount = target mantissa exponent)
    : toLex (g, n) ≤ toLex (exponent + amount, mantissa / 2 ^ amount) := by
  have two : (0 : ℚ) < 2 := by norm_num
  have exponents : g ≤ exponent + amount := by
    rw [shifted]
    rcases canonical.full with full | rfl
    · have bits : (2 : ℚ) ^ (52 + g) < 2 ^ ((mantissa.log2 + 1 : Nat) + exponent) := by
        calc (2 : ℚ) ^ (52 + g) = (2 ^ 52 : Nat) * 2 ^ g := by
              rw [zpow_add₀ two.ne']
              norm_num
          _ ≤ value n g := by
              unfold value
              gcongr
          _ ≤ value mantissa exponent := below
          _ < (2 ^ (mantissa.log2 + 1) : Nat) * 2 ^ exponent := by
              unfold value
              gcongr
              exact Nat.lt_log2_self
          _ = 2 ^ ((mantissa.log2 + 1 : Nat) + exponent) := by
              rw [zpow_add₀ two.ne', zpow_natCast, Nat.cast_pow, Nat.cast_two]
      have order := (zpow_lt_zpow_iff_right₀ (by norm_num)).mp bits
      unfold target
      omega
    · exact le_max_right _ _
  rw [Prod.Lex.toLex_le_toLex]
  rcases exponents.lt_or_eq with less | rfl
  · exact .inl less
  · refine .inr ⟨rfl, (Nat.le_div_iff_mul_le (Nat.two_pow_pos amount)).mpr ?_⟩
    have scaled : ((n * 2 ^ amount : Nat) : ℚ) * 2 ^ exponent ≤ mantissa * 2 ^ exponent := by
      calc ((n * 2 ^ amount : Nat) : ℚ) * 2 ^ exponent = value n (exponent + amount) := by
            rw [value, zpow_add₀ two.ne', zpow_natCast, Nat.cast_mul, Nat.cast_pow, Nat.cast_two,
              mul_assoc, mul_comm (2 ^ amount : ℚ)]
        _ ≤ mantissa * 2 ^ exponent := below
    exact_mod_cast le_of_mul_le_mul_right scaled (zpow_pos two exponent)

/-- After the shift to the target the mantissa fits, and it is full unless the exponent is the
least.
-/
theorem shifted_fits {mantissa amount : Nat} {exponent : Int} (positive : mantissa ≠ 0)
    (shifted : exponent + amount = target mantissa exponent)
    : mantissa / 2 ^ amount < 2 ^ 53
      ∧ (2 ^ 52 ≤ mantissa / 2 ^ amount ∨ exponent + amount = -1074) := by
  unfold target at shifted
  constructor
  · refine Nat.div_lt_of_lt_mul (Nat.lt_log2_self.trans_le ?_)
    rw [← Nat.pow_add]
    exact Nat.pow_le_pow_right (by decide) (by omega)
  · by_cases least : exponent + amount = -1074
    · exact .inr least
    · left
      rw [Nat.le_div_iff_mul_le (Nat.two_pow_pos amount), ← Nat.pow_add,
        show 52 + amount = mantissa.log2 by omega]
      exact Nat.log2_self_le positive

/-- Rounding a value that is not below some float comes to a float that is not below it either. -/
theorem exists_round {mantissa n : Nat} {exponent g : Int} (wide : 2 ^ 52 ≤ mantissa)
    (canonical : Canonical n g) (positive : 0 < n) (below : value n g ≤ value mantissa exponent)
    (sign : Sign)
    : ∃ rounded f positive,
        roundWithAccuracy Format.binary64 sign mantissa exponent .exact
          = .finite sign rounded f positive
        ∧ Canonical rounded f
        ∧ toLex (g, n) ≤ toLex (f, rounded) := by
  have nonzero : mantissa ≠ 0 := by omega
  have log : 52 ≤ mantissa.log2 := (Nat.le_log2 nonzero).mpr wide
  have shifted : exponent + (target mantissa exponent - exponent).toNat
      = target mantissa exponent := by
    unfold target
    omega
  unfold roundWithAccuracy
  rw [shift_eq]
  dsimp only
  generalize (target mantissa exponent - exponent).toNat = amount at shifted
  have bounds := le_roundedMantissa ((⟨mantissa, false, false⟩ : ExtendedMantissa) >>> amount)
  rw [mantissa_shift] at bounds
  dsimp only at bounds
  generalize ((⟨mantissa, false, false⟩ : ExtendedMantissa) >>> amount).roundedMantissa = rounded
    at bounds
  obtain ⟨lower, upper⟩ := bounds
  have above := le_shifted canonical below shifted
  obtain ⟨fits, full⟩ := shifted_fits nonzero shifted
  have least : -1074 ≤ exponent + amount := shifted ▸ le_max_right _ _
  have nonzero : 0 < rounded := by
    rw [Prod.Lex.toLex_le_toLex] at above
    have bottom := canonical.least
    dsimp only at above
    omega
  have above : toLex (g, n) ≤ toLex (exponent + amount, rounded) := by
    refine above.trans ?_
    rw [Prod.Lex.toLex_le_toLex]
    exact .inr ⟨rfl, lower⟩
  by_cases carry : rounded < 2 ^ 53
  · rw [shift_fits carry least, dif_neg nonzero.ne']
    exact ⟨rounded, _, nonzero, rfl, ⟨carry, least, full.imp_left lower.trans'⟩, above⟩
  · obtain rfl : rounded = 2 ^ 53 := by omega
    rw [shift_overflow least, dif_neg (Nat.two_pow_pos 52).ne']
    refine ⟨2 ^ 52, _, by decide, rfl, ⟨by decide, by omega, .inl le_rfl⟩, above.trans ?_⟩
    rw [Prod.Lex.toLex_le_toLex]
    exact .inl (Int.lt_succ _)

end DataflowPlan.Floats
