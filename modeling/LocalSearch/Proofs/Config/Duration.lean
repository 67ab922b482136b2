import LocalSearch.Config.Search
import LocalSearch.Proofs.Signs
/-!
# Which numbers are durations

A floating-point number of seconds that is not negative is a duration exactly if it is less than
`2 ^ 64`.

* `exponentField_eq`, `fractionField_eq`, `signField_eq`: the fields of the bits of a number.
* `ofBits_of_unpack`: the exact value of a finite number, read off its bits.
* `floatNanoseconds?_eq_none_iff`: the numbers of seconds that have no nanoseconds.
* `TerminationConfig.readTimeout_eq_error_iff`: the time limits that are faults.
-/

namespace LocalSearch

open Float.Model Float.Model.UnpackedFloat Signs

theorem twoPow_eq (n : Nat) : twoPow n = 2 ^ n := rfl

theorem tenPow_eq (n : Nat) : tenPow n = 10 ^ n := rfl

/-! ## The bits of a number -/

theorem exponentField_eq (x : Float) :
    ((x.toBits >>> 52) &&& 0x7ff).toNat =
      (@unpackExponent Format.binary64 x.toModel.toBits.toBitVec).toNat := by
  show _ = (BitVec.extractLsb 62 52 x.toBits.toBitVec).toNat
  rw [BitVec.extractLsb_toNat, UInt64.toNat_and, UInt64.toNat_shiftRight]
  show (x.toBits.toNat >>> (52 % 64)) &&& (2 ^ 11 - 1) = _
  rw [Nat.and_two_pow_sub_one_eq_mod]
  rfl

theorem fractionField_eq (x : Float) :
    (x.toBits &&& 0xfffffffffffff).toNat =
      (@unpackMantissa Format.binary64 x.toModel.toBits.toBitVec).toNat := by
  show _ = (BitVec.extractLsb 51 0 x.toBits.toBitVec).toNat
  rw [BitVec.extractLsb_toNat, UInt64.toNat_and]
  show x.toBits.toNat &&& (2 ^ 52 - 1) = _
  rw [Nat.and_two_pow_sub_one_eq_mod]
  rfl

theorem signField_eq (x : Float) :
    (x.toBits >>> 63).toNat = (@unpackSign Format.binary64 x.toModel.toBits.toBitVec).toNat := by
  show _ = (BitVec.extractLsb 63 63 x.toBits.toBitVec).toNat
  rw [BitVec.extractLsb_toNat, UInt64.toNat_shiftRight]
  show x.toBits.toNat >>> 63 = x.toBits.toNat >>> 63 % 2
  have hlt := x.toBits.toNat_lt
  rw [Nat.shiftRight_eq_div_pow]
  omega

theorem sign_of_signField {x : Float} (h : x.toBits >>> 63 = 1) :
    Sign.ofBitVec (@unpackSign Format.binary64 x.toModel.toBits.toBitVec) = .negative := by
  have hfield := signField_eq x
  rw [h] at hfield
  unfold Sign.ofBitVec
  rw [if_neg]
  intro hzero
  rw [hzero] at hfield
  cases hfield

/-- The parts of a finite number are those of its bits. -/
theorem ofBits_of_unpack {x : Float} {s : Sign} {m : Nat} {e : Int} {hm : 0 < m}
    (h : x.toModel.unpack = .finite s m e hm) :
    (Binary.ofBits x.toBits).significand = m ∧ (Binary.ofBits x.toBits).exponent = e ∧
      (x.toBits >>> 63 = 1 → s = .negative) := by
  have hbias : Format.binary64.exponentBias = 1023 := rfl
  unfold Binary.ofBits
  rw [exponentField_eq, fractionField_eq]
  unfold Float.Model.unpack UnpackedFloat.unpack at h
  dsimp only at h ⊢
  split at h
  · split at h
    · cases h
    · cases h
  · split at h
    · rename_i hexponent
      split at h
      · cases h
      · -- a number below the least normal one
        injection h with hs hmantissa hlow
        rw [hexponent, hbias] at hlow
        rw [hexponent, if_pos (show (0#11).toNat = 0 from rfl)]
        exact ⟨hmantissa, hlow ▸ rfl, fun hone => hs ▸ sign_of_signField hone⟩
    · rename_i hexponent
      injection h with hs hmantissa hlow
      have hne : (@unpackExponent Format.binary64 x.toModel.toBits.toBitVec).toNat ≠ 0 :=
        fun hzero => hexponent (BitVec.eq_of_toNat_eq hzero)
      rw [if_neg hne]
      refine ⟨?_, ?_, fun hone => hs ▸ sign_of_signField hone⟩
      · have hlt := (@unpackMantissa Format.binary64 x.toModel.toBits.toBitVec).isLt
        rw [← hmantissa, BitVec.toNat_append, ← Nat.shiftLeft_add_eq_or_of_lt hlt]
        exact Nat.add_comm _ _
      · rw [hbias] at hlow
        push_cast at hlow
        rw [← hlow]

/-! ## Nanoseconds -/

/-- The numbers from `2 ^ 64` upwards are infinity and those whose last place is at least that of
`2 ^ 64`. -/
theorem two_pow_64_le_iff {x : Float} : (18446744073709551616 : Float) ≤ x ↔
    x.toModel.unpack = .infinity .positive ∨
      ∃ m e hm, x.toModel.unpack = .finite .positive m e hm ∧ 12 ≤ e := by
  have hpower : (18446744073709551616 : Float).toModel.unpack =
    .finite .positive (2 ^ 52) 12 (by decide) := rfl
  rw [le_iff, hpower]
  cases hx : x.toModel.unpack with
  | infinity s => cases s <;> simp [UnpackedFloat.compare]
  | notANumber => simp [UnpackedFloat.compare]
  | zero s => simp [UnpackedFloat.compare]
  | finite s m e hm =>
    cases s with
    | negative => simp [UnpackedFloat.compare]
    | positive =>
      have hnormal := normal_of_unpack hx
      have hlarge : 12 ≤ e ↔ 12 < e ∨ 12 = e ∧ 2 ^ 52 ≤ m := by omega
      simp [UnpackedFloat.compare, hlarge, Ordering.isLE_then_iff_or, Nat.isLE_compare,
        Int.compare_eq_lt, hm]

/-- Rounding to whole nanoseconds adds at most one, and nothing to a whole number of seconds. -/
theorem exists_floatNanoseconds?_eq {x : Float} {m : Nat} {e : Int} {hm : 0 < m}
    (h : x.toModel.unpack = .finite .positive m e hm) : ∃ rounded,
    floatNanoseconds? x =
        (if rounded < UInt64.size * tenPow 9 then some rounded else none) ∧
      rounded ≤ m * 2 ^ e.toNat * 10 ^ 9 / 2 ^ (-e).toNat + 1 ∧
      (0 ≤ e → rounded = m * 2 ^ e.toNat * 10 ^ 9) := by
  obtain ⟨hsignificand, hexponent, hsign⟩ := ofBits_of_unpack h
  have hnan : x.isNaN = false := congrArg UnpackedFloat.isNaN h
  have hinf : x.isInf = false := congrArg UnpackedFloat.isInf h
  have hpositive : ¬(x.toBits >>> 63 = 1 ∧ m ≠ 0) := fun hone => by cases hsign hone.1
  unfold floatNanoseconds?
  simp only [hnan, hinf, hsignificand, hexponent, Bool.or_false, Bool.false_eq_true, if_false,
    if_neg hpositive, twoPow_eq, tenPow_eq]
  refine ⟨_, rfl, ?_, fun he => ?_⟩
  · split
    · exact Nat.le_refl _
    · exact Nat.le_succ _
  · have hwhole : (-e).toNat = 0 := by omega
    simp [hwhole, Nat.mod_one]

/-- A number below `2 ^ 64` either is whole, or so small that rounding does not reach `2 ^ 64`. -/
theorem lt_size_iff {m rounded : Nat} {e : Int} (hparts : InRange m e)
    (hnormal : -1074 < e → 2 ^ 52 ≤ m)
    (hrounded : rounded ≤ m * 2 ^ e.toNat * 10 ^ 9 / 2 ^ (-e).toNat + 1)
    (hwhole : 0 ≤ e → rounded = m * 2 ^ e.toNat * 10 ^ 9) :
    rounded < UInt64.size * tenPow 9 ↔ e < 12 := by
  rw [tenPow_eq]
  obtain he | he := lt_or_ge e 0
  · have hscale : e.toNat = 0 := by omega
    rw [hscale] at hrounded
    have hquotient := Nat.div_le_self (m * 2 ^ 0 * 10 ^ 9) (2 ^ (-e).toNat)
    have hsmall := hparts.fits
    have hsize : UInt64.size = 2 ^ 64 := rfl
    omega
  · lift e to Nat using he
    rw [hwhole (Int.natCast_nonneg e), Int.toNat_natCast,
      Nat.mul_lt_mul_right (by decide : 0 < 10 ^ 9)]
    constructor
    · intro h
      by_contra hlarge
      have hm : 2 ^ 52 ≤ m := hnormal (by omega)
      have hpower : 2 ^ 12 ≤ 2 ^ e := Nat.pow_le_pow_right (by decide) (by omega)
      exact absurd h (Nat.not_lt.2 (Nat.mul_le_mul hm hpower))
    · intro h
      have hpower : 2 ^ e ≤ 2 ^ 11 := Nat.pow_le_pow_right (by decide) (by omega)
      exact (Nat.mul_lt_mul_of_lt_of_le hparts.fits hpower (by decide)).trans_le (by decide)

theorem floatNanoseconds?_eq_none_iff {x : Float} (hx : 0 ≤ x) :
    floatNanoseconds? x = none ↔ (18446744073709551616 : Float) ≤ x := by
  rw [two_pow_64_le_iff]
  rw [le_iff, unpack_zero] at hx
  cases hu : x.toModel.unpack with
  | infinity s =>
    cases s with
    | negative =>
      rw [hu] at hx
      cases hx
    | positive =>
      have hinf : x.isInf = true := congrArg UnpackedFloat.isInf hu
      simp [floatNanoseconds?, hinf]
  | notANumber =>
    rw [hu] at hx
    cases hx
  | zero s =>
    have hzero : floatNanoseconds? x = some 0 := by
      cases s with
      | positive =>
        rw [eq_of_unpack (y := 0) hu]
        decide +kernel
      | negative =>
        rw [eq_of_unpack (y := -0) hu]
        decide +kernel
    simp [hzero]
  | finite s m e hm =>
    cases s with
    | negative =>
      rw [hu] at hx
      cases hx
    | positive =>
      obtain ⟨rounded, hrounded, hbound, hwhole⟩ := exists_floatNanoseconds?_eq hu
      have hfits := lt_size_iff (inRange_of_unpack hu) (normal_of_unpack hu) hbound hwhole
      rw [hrounded]
      simp [hfits, hm]

theorem zero_le_of_two_pow_64_le {x : Float} (h : (18446744073709551616 : Float) ≤ x) : 0 ≤ x := by
  rw [le_iff, unpack_zero]
  obtain hu | ⟨m, e, hm, hu, -⟩ := two_pow_64_le_iff.1 h
  · rw [hu]
    rfl
  · rw [hu]
    rfl

/-- The numbers that stand for no time limit at all, negative ones and no number, are no faults. -/
theorem TerminationConfig.readTimeout_eq_error_iff {seconds : Float} {f : Fault} :
    readTimeout seconds = .error f ↔
      f = .durationRange ∧ (18446744073709551616 : Float) ≤ seconds := by
  have hcount : Scalar.toNanoseconds? seconds = floatNanoseconds? seconds := rfl
  unfold readTimeout
  split
  · rename_i h
    rw [← floatNanoseconds?_eq_none_iff h]
    unfold Duration.ofScalar
    rw [hcount]
    cases floatNanoseconds? seconds with
    | none => simp [Functor.map, Except.map, eq_comm]
    | some n => simp [Functor.map, Except.map]
  · rename_i h
    have hsmall : ¬(18446744073709551616 : Float) ≤ seconds := mt zero_le_of_two_pow_64_le h
    simp [hsmall]

end LocalSearch
