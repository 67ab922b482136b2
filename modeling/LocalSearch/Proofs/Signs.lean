import Mathlib
import LocalSearch.Scalar.Float
/-!
# Signs of floating-point numbers

Rounding keeps signs: a sum of positive numbers is positive, infinity included, because the lowest
place of a sum is the lowest place of one of its terms. A product can round to zero, but it is not
positive unless its factors have equal signs.

* `Above`: positive infinity and the positive numbers, in their parts.
* `zero_lt_iff`, `zero_lt_of_not_le`: how zero compares with a number.
* `zero_lt_sum`: a sum of positive numbers.
* `zero_lt_of_mul`: the first factor of a positive product.
* `isFinite_eq`: the test for numbers that are finite.
* `mul_one`: a product with one, to which nothing has to be rounded.
-/

namespace LocalSearch.Signs

open Float.Model Float.Model.UnpackedFloat

/-! ## Parts of a number -/

/-- The parts that a number other than zero can have. -/
structure InRange (mantissa : Nat) (exponent : Int) : Prop where
  pos : 0 < mantissa
  fits : mantissa < 2 ^ 53
  lowest : -1074 ≤ exponent

/-- The parts of a number above zero, positive infinity included. -/
inductive Above : UnpackedFloat → Prop
  | infinity : Above (.infinity .positive)
  | finite {mantissa : Nat} {exponent : Int} (h : InRange mantissa exponent) :
      Above (.finite .positive mantissa exponent h.pos)

theorem inRange_of_unpack {x : Float.Model} {s : Sign} {m : Nat} {e : Int} {hm : 0 < m}
    (h : x.unpack = .finite s m e hm) : InRange m e := by
  have hbias : Format.binary64.exponentBias = 1023 := rfl
  unfold Float.Model.unpack UnpackedFloat.unpack at h
  dsimp only at h
  split at h
  · split at h
    · cases h
    · cases h
  · split at h
    · rename_i hexponent
      split at h
      · cases h
      · -- a number below the least normal one
        injection h with _ hmantissa hlow
        have hlt := (@unpackMantissa Format.binary64 x.toBits.toBitVec).isLt
        rw [hmantissa] at hlt
        rw [hexponent, hbias] at hlow
        exact ⟨hm, hlt.trans (by decide), hlow ▸ by decide⟩
    · rename_i hexponent
      injection h with _ hmantissa hlow
      have hlt := (1#1 ++ @unpackMantissa Format.binary64 x.toBits.toBitVec).isLt
      rw [hmantissa] at hlt
      have hpos : 0 < (@unpackExponent Format.binary64 x.toBits.toBitVec).toNat := by
        rw [BitVec.toNat_pos, BitVec.pos_iff_ne_zero]
        exact hexponent
      rw [hbias] at hlow
      push_cast at hlow
      exact ⟨hm, hlt, by omega⟩

/-- Above the lowest place the first digit of a mantissa is never zero. -/
theorem normal_of_unpack {x : Float.Model} {s : Sign} {m : Nat} {e : Int} {hm : 0 < m}
    (h : x.unpack = .finite s m e hm) (he : -1074 < e) : 2 ^ 52 ≤ m := by
  have hbias : Format.binary64.exponentBias = 1023 := rfl
  unfold Float.Model.unpack UnpackedFloat.unpack at h
  dsimp only at h
  split at h
  · split at h
    · cases h
    · cases h
  · split at h
    · rename_i hexponent
      split at h
      · cases h
      · -- a number below the least normal one
        injection h with _ _ hlow
        rw [hexponent, hbias] at hlow
        have hleast : e = -1074 := hlow ▸ rfl
        omega
    · injection h with _ hmantissa _
      rw [← hmantissa, BitVec.toNat_append]
      exact Nat.left_le_or

theorem above_of_unpack {x : Float.Model} (h : x.unpack = .infinity .positive ∨
    ∃ m e hm, x.unpack = .finite .positive m e hm) : Above x.unpack := by
  obtain h | ⟨m, e, hm, h⟩ := h
  · rw [h]
    exact .infinity
  · rw [h]
    exact .finite (inRange_of_unpack h)

theorem ofBitVec_toBitVec (s : Sign) : Sign.ofBitVec s.toBitVec = s := by
  cases s <;> rfl

theorem unpackSign_packComponents {spec : Format} {s : Sign} {exponent mantissa} :
    unpackSign (packComponents spec s exponent mantissa) = s.toBitVec := by
  ext i hi
  have hi : i = 0 := by omega
  subst hi
  simp [unpackSign, packComponents, BitVec.getLsbD_append, BitVec.getElem_append,
    BitVec.getLsbD_eq_getElem]

/-- The first digit of a normal number is not written, so its mantissa is not zero. -/
theorem toNat_append_pos {n : Nat} (mantissa : BitVec n) : 0 < (1#1 ++ mantissa).toNat := by
  simp

/-- Bits with the positive sign that are neither those of zero nor those of no number. -/
theorem unpack_packComponents {exponent : BitVec 11} {mantissa : BitVec 52}
    (hmax : exponent = -1#11 → mantissa = 0#52) (hmin : exponent = 0#11 → mantissa ≠ 0#52) :
    UnpackedFloat.unpack Format.binary64
        (packComponents Format.binary64 .positive exponent mantissa) = .infinity .positive ∨
      ∃ m e hm, UnpackedFloat.unpack Format.binary64
        (packComponents Format.binary64 .positive exponent mantissa) =
          .finite .positive m e hm := by
  unfold UnpackedFloat.unpack
  simp only [unpackExponent_packComponents, unpackMantissa_packComponents,
    unpackSign_packComponents, ofBitVec_toBitVec]
  by_cases h : exponent = -1#11
  · rw [if_pos h, if_pos (hmax h)]
    exact .inl rfl
  · rw [if_neg h]
    by_cases h : exponent = 0#11
    · rw [if_pos h, dif_neg (hmin h)]
      exact .inr ⟨_, _, (BitVec.toNat_pos _).2 ((BitVec.pos_iff_ne_zero _).2 (hmin h)), rfl⟩
    · rw [if_neg h]
      exact .inr ⟨_, _, toNat_append_pos mantissa, rfl⟩

/-- Packing keeps a number above zero. -/
theorem Above.pack {u : UnpackedFloat} (h : Above u) : Above (Float.Model.pack u).unpack := by
  cases h with
  | infinity => exact .infinity
  | @finite m e h =>
    refine above_of_unpack ?_
    have hbias : Format.binary64.exponentBias = 1023 := rfl
    have hbits : Format.binary64.mantissaBits = 53 := rfl
    have hlowest := h.lowest
    unfold Float.Model.pack Float.Model.unpack UnpackedFloat.pack
    dsimp only
    rw [hbias, hbits]
    generalize hbiased : (e + ((1023 : Nat) : Int) + ((52 : Nat) : Int)).toNat = biased
    have hpos : 0 < biased := by omega
    split
    · exact unpack_packComponents (fun _ => rfl) (by decide)
    · rename_i hexponent
      split
      · -- a normal number: its exponent is neither the greatest nor zero
        have hnat : (BitVec.ofNat 11 biased).toNat = biased := by
          rw [BitVec.toNat_ofNat]
          exact Nat.mod_eq_of_lt (by omega)
        refine unpack_packComponents (fun h => ?_) fun h => ?_
        · have hmax : biased = 2047 := hnat.symm.trans (congrArg BitVec.toNat h)
          omega
        · have hmin : biased = 0 := hnat.symm.trans (congrArg BitVec.toNat h)
          omega
      · -- a number below the least normal one: its mantissa is not zero
        rename_i hbelow
        have hlog : m.log2 < 53 := (Nat.log2_lt h.pos.ne').2 h.fits
        have hsmall : m < 2 ^ 52 := (Nat.log2_lt h.pos.ne').1 (by omega)
        have hnat : (BitVec.ofNat 52 m).toNat = m := by
          rw [BitVec.toNat_ofNat]
          exact Nat.mod_eq_of_lt hsmall
        refine unpack_packComponents (fun h => absurd h (by decide)) fun _ hzero => ?_
        exact h.pos.ne' (hnat.symm.trans (congrArg BitVec.toNat hzero))

/-- A number is known by its parts. -/
theorem eq_of_unpack {x y : Float} (h : x.toModel.unpack = y.toModel.unpack) : x = y :=
  Float.toBits_inj.1 <| UInt64.toBitVec_inj.1 <|
    (unpack_inj_of_valid x.toModel.valid y.toModel.valid).1 h

/-! ## Rounding -/

theorem mantissa_shiftRight (em : ExtendedMantissa) (k : Nat) :
    (em >>> k).mantissa = em.mantissa / 2 ^ k := by
  induction k with
  | zero => exact (Nat.div_one _).symm
  | succ k ih =>
    show (em >>> k).mantissa / 2 = _
    rw [ih, Nat.div_div_eq_div_mul, Nat.pow_succ]

theorem mantissa_ofMantissaAndAccuracy (m : Nat) (a : Accuracy) :
    (ExtendedMantissa.ofMantissaAndAccuracy m a).mantissa = m := by
  cases a with
  | exact => rfl
  | inexact o => cases o <;> rfl

theorem le_roundedMantissa (em : ExtendedMantissa) : em.mantissa ≤ em.roundedMantissa := by
  obtain ⟨m, round, sticky⟩ := em
  cases round <;> cases sticky <;>
    simp [ExtendedMantissa.roundedMantissa, ExtendedMantissa.accuracy,
      Accuracy.roundToNearestEven]

/-- The exponent to which a number is rounded. -/
theorem targetExponent_eq (m : Nat) (e : Int) :
    Format.binary64.targetExponent (totalExponent m e) = max (m.log2 + 1 + e - 53) (-1074) := rfl

/-- Dropping the places below the exponent to which a number is rounded leaves its first ones. -/
theorem inRange_shift {m : Nat} {e : Int} (hm : 0 < m) (he : -1074 ≤ e) (a : Accuracy) :
    InRange (shiftToTargetExponent Format.binary64 m e a).1.mantissa
      (shiftToTargetExponent Format.binary64 m e a).2 := by
  unfold shiftToTargetExponent shiftToExponent
  rw [targetExponent_eq]
  dsimp only
  rw [mantissa_shiftRight, mantissa_ofMantissaAndAccuracy]
  generalize hk : (max ((m.log2 : Int) + 1 + e - 53) (-1074) - e).toNat = k
  have hlow := Nat.log2_self_le hm.ne'
  have hhigh := Nat.lt_log2_self (n := m)
  refine ⟨Nat.div_pos ?_ (Nat.two_pow_pos k), ?_, by omega⟩
  · exact (Nat.pow_le_pow_right (by decide) (by omega)).trans hlow
  · rw [Nat.div_lt_iff_lt_mul (Nat.two_pow_pos k), ← Nat.pow_add]
    exact hhigh.trans_le (Nat.pow_le_pow_right (by decide) (by omega))

/-- Rounding does not take a number to zero if its lowest place is one that numbers have. -/
theorem above_round {m : Nat} {e : Int} (hm : 0 < m) (he : -1074 ≤ e) :
    Above (UnpackedFloat.round Format.binary64 .positive m e) := by
  unfold UnpackedFloat.round decreaseExponent roundWithAccuracy
  dsimp only
  generalize hk : (e - Format.binary64.targetExponent (totalExponent m e)).toNat = k
  have hleft : 0 < m <<< k := by
    rw [Nat.shiftLeft_eq]
    exact Nat.mul_pos hm (Nat.two_pow_pos k)
  have hexponent : -1074 ≤ e - (k : Int) := by
    rw [targetExponent_eq] at hk
    omega
  have hfirst := inRange_shift hleft hexponent .exact
  generalize shiftToTargetExponent Format.binary64 (m <<< k) (e - k) .exact = first at hfirst
  -- rounding up may need one more place, which the second shift drops
  have hsecond := inRange_shift (hfirst.pos.trans_le (le_roundedMantissa first.1)) hfirst.lowest
    .exact
  rw [dif_neg hsecond.pos.ne']
  exact .finite hsecond

/-- The sum of numbers above zero is above zero. -/
theorem Above.add {u v : UnpackedFloat} (hu : Above u) (hv : Above v) :
    Above (UnpackedFloat.add Format.binary64 u v) := by
  cases hu with
  | infinity =>
    cases hv with
    | infinity => exact .infinity
    | finite => exact .infinity
  | @finite m e hm =>
    cases hv with
    | infinity => exact .infinity
    | @finite n f hn =>
      unfold UnpackedFloat.add decreaseExponent UnpackedFloat.normalize
      dsimp only
      have hpos : 0 < Sign.positive.apply (m <<< (e - min e f).toNat : Nat) +
          Sign.positive.apply (n <<< (f - min e f).toNat : Nat) := by
        have hleft : 0 < m <<< (e - min e f).toNat := by
          rw [Nat.shiftLeft_eq]
          exact Nat.mul_pos hm.pos (Nat.two_pow_pos _)
        exact Int.add_pos_of_pos_of_nonneg (Int.natCast_pos.2 hleft) (Int.natCast_nonneg _)
      rw [Int.compare_eq_gt.2 hpos]
      exact above_round (by omega) (le_min hm.lowest hn.lowest)

/-! ## Comparing with zero -/

theorem lt_iff {a b : Float} : a < b ↔ a.toModel.unpack.compare b.toModel.unpack = some .lt := by
  show decide (a.toModel.unpack.lt b.toModel.unpack = true) = true ↔ _
  rw [decide_eq_true_iff]
  exact beq_iff_eq

theorem le_iff {a b : Float} :
    a ≤ b ↔ ((a.toModel.unpack.compare b.toModel.unpack).any (·.isLE)) = true :=
  decide_eq_true_iff

theorem le_of_lt {a b : Float} (h : a < b) : a ≤ b := by
  rw [le_iff, lt_iff.1 h]
  rfl

theorem unpack_zero : (0 : Float).toModel.unpack = .zero .positive := rfl

/-- A number above zero, below zero, no number at all, or a zero. -/
theorem above_or (x : Float) : Above x.toModel.unpack ∨ x < 0 ∨
    x.toModel.unpack = .notANumber ∨ ∃ s, x.toModel.unpack = .zero s := by
  rw [lt_iff, unpack_zero]
  cases hx : x.toModel.unpack with
  | infinity s =>
    cases s with
    | negative => exact .inr (.inl rfl)
    | positive => exact .inl .infinity
  | notANumber => exact .inr (.inr (.inl rfl))
  | zero s => exact .inr (.inr (.inr ⟨s, rfl⟩))
  | finite s m e hm =>
    cases s with
    | negative => exact .inr (.inl rfl)
    | positive => exact .inl (.finite (inRange_of_unpack hx))

theorem zero_lt_iff {x : Float} : 0 < x ↔ Above x.toModel.unpack := by
  rw [lt_iff, unpack_zero]
  constructor
  · intro h
    generalize hx : x.toModel.unpack = u at h
    cases u with
    | infinity s =>
      cases s with
      | negative => cases h
      | positive => exact .infinity
    | notANumber => cases h
    | zero s => cases h
    | finite s m e hm =>
      cases s with
      | negative => cases h
      | positive => exact .finite (inRange_of_unpack hx)
  · intro h
    generalize x.toModel.unpack = u at h
    cases h with
    | infinity => rfl
    | finite => rfl

theorem not_le_of_zero_lt {x : Float} (h : 0 < x) : ¬ x ≤ 0 := by
  rw [zero_lt_iff] at h
  rw [le_iff, unpack_zero]
  generalize x.toModel.unpack = u at h
  cases h with
  | infinity => exact Bool.false_ne_true
  | finite => exact Bool.false_ne_true

/-- A number that is neither negative nor zero is above zero. -/
theorem zero_lt_of_not_le {x : Float} (hnumber : x.isNaN = false) (h : ¬ x ≤ 0) : 0 < x := by
  obtain habove | hbelow | hnone | ⟨s, hzero⟩ := above_or x
  · exact zero_lt_iff.2 habove
  · exact absurd (le_of_lt hbelow) h
  · have hnumber : x.toModel.unpack.isNaN = false := hnumber
    rw [hnone] at hnumber
    cases hnumber
  · rw [le_iff, unpack_zero, hzero] at h
    exact absurd rfl h

/-! ## Sums, products and differences -/

theorem zero_lt_add {a b : Float} (ha : 0 < a) (hb : 0 < b) : 0 < a + b :=
  zero_lt_iff.2 ((zero_lt_iff.1 ha).add (zero_lt_iff.1 hb)).pack

/-- The first term of a sum is added to minus zero. -/
theorem zero_lt_negZero_add {b : Float} (hb : 0 < b) : 0 < -0 + b := by
  have hb := zero_lt_iff.1 hb
  refine zero_lt_iff.2 ?_
  show Above (Float.Model.pack
    (UnpackedFloat.add Format.binary64 (.zero .negative) b.toModel.unpack)).unpack
  generalize b.toModel.unpack = u at hb
  cases hb with
  | infinity => exact Above.infinity.pack
  | finite h => exact (Above.finite h).pack

theorem zero_lt_foldl {xs : List Float} {a : Float} (ha : 0 < a) (hxs : ∀ x ∈ xs, 0 < x) :
    0 < xs.foldl (· + ·) a := by
  induction xs generalizing a with
  | nil => exact ha
  | cons x xs ih =>
    obtain ⟨hx, hxs⟩ := List.forall_mem_cons.1 hxs
    exact ih (zero_lt_add ha hx) hxs

/-- The sum of at least one positive number is positive. -/
theorem zero_lt_sum {xs : List Float} (hne : xs ≠ []) (hxs : ∀ x ∈ xs, 0 < x) :
    0 < Scalar.sum xs := by
  cases xs with
  | nil => exact absurd rfl hne
  | cons x xs =>
    obtain ⟨hx, hxs⟩ := List.forall_mem_cons.1 hxs
    show 0 < xs.foldl (· + ·) (-0 + x)
    exact zero_lt_foldl (zero_lt_negZero_add hx) hxs

theorem unpack_pack_notANumber : (Float.Model.pack .notANumber).unpack = .notANumber := rfl

theorem unpack_pack_zero (s : Sign) : (Float.Model.pack (.zero s)).unpack = .zero s := by
  cases s <;> rfl

/-- A product with zero is a zero or no number at all. -/
theorem not_above_zero_mul (s : Sign) (v : UnpackedFloat) :
    ¬ Above (Float.Model.pack (UnpackedFloat.mul Format.binary64 (.zero s) v)).unpack := by
  intro h
  cases v with
  | infinity t =>
    rw [UnpackedFloat.mul, unpack_pack_notANumber] at h
    cases h
  | notANumber =>
    rw [UnpackedFloat.mul, unpack_pack_notANumber] at h
    · cases h
    · nofun
  | zero t =>
    rw [UnpackedFloat.mul, unpack_pack_zero] at h
    cases h
  | finite t m e hm =>
    rw [UnpackedFloat.mul, unpack_pack_zero] at h
    cases h

/-- The first factor of a positive product, unless it is negative. -/
theorem zero_lt_of_mul {a b : Float} (ha : ¬ a < 0) (h : 0 < a * b) : 0 < a := by
  have h : Above (Float.Model.pack
    (UnpackedFloat.mul Format.binary64 a.toModel.unpack b.toModel.unpack)).unpack := zero_lt_iff.1 h
  obtain habove | hbelow | hnone | ⟨s, hzero⟩ := above_or a
  · exact zero_lt_iff.2 habove
  · exact absurd hbelow ha
  · rw [hnone, UnpackedFloat.mul, unpack_pack_notANumber] at h
    cases h
  · rw [hzero] at h
    exact absurd h (not_above_zero_mul s _)

theorem isFinite_eq (x : Float) : Scalar.isFinite x = x.isFinite := by
  show UnpackedFloat.beq (Float.Model.pack
    (UnpackedFloat.sub Format.binary64 x.toModel.unpack x.toModel.unpack)).unpack (Float.Model.pack
    (UnpackedFloat.sub Format.binary64 x.toModel.unpack x.toModel.unpack)).unpack =
      x.toModel.unpack.isFinite
  cases x.toModel.unpack with
  | infinity s => cases s <;> rfl
  | notANumber => rfl
  | zero s => cases s <;> rfl
  | finite s m e hm =>
    have hzero : UnpackedFloat.sub Format.binary64 (.finite s m e hm) (.finite s m e hm) =
        .zero .positive := by
      unfold UnpackedFloat.sub UnpackedFloat.normalize
      dsimp only
      rw [Int.sub_self]
      rfl
    rw [hzero]
    rfl

/-! ## Multiplying by one -/

/-- Dropping places that are all zero loses nothing. -/
theorem shiftRight_exact (m k : Nat) :
    ExtendedMantissa.ofMantissaAndAccuracy (m * 2 ^ k) .exact >>> k =
      ExtendedMantissa.ofMantissaAndAccuracy m .exact := by
  induction k generalizing m with
  | zero =>
    rw [Nat.pow_zero, Nat.mul_one]
    rfl
  | succ k ih =>
    show (ExtendedMantissa.ofMantissaAndAccuracy (m * 2 ^ (k + 1)) .exact >>> k).shiftRightOne = _
    rw [Nat.pow_succ, Nat.mul_comm (2 ^ k), ← Nat.mul_assoc, ih]
    simp [ExtendedMantissa.shiftRightOne, ExtendedMantissa.ofMantissaAndAccuracy]

theorem log2_mul_two_pow {m : Nat} (hm : 0 < m) (k : Nat) : (m * 2 ^ k).log2 = m.log2 + k := by
  rw [Nat.log2_eq_iff (Nat.mul_pos hm (Nat.two_pow_pos k)).ne', Nat.pow_add, Nat.add_right_comm,
    Nat.pow_add]
  exact ⟨Nat.mul_le_mul_right _ (Nat.log2_self_le hm.ne'),
    Nat.mul_lt_mul_of_pos_right Nat.lt_log2_self (Nat.two_pow_pos k)⟩

/-- A number with more places at its end is rounded to the number. -/
theorem shift_of_unpack {x : Float.Model} {s : Sign} {m : Nat} {e : Int} {hm : 0 < m}
    (h : x.unpack = .finite s m e hm) (k : Nat) :
    shiftToTargetExponent Format.binary64 (m * 2 ^ k) (e - k) .exact =
      (.ofMantissaAndAccuracy m .exact, e) := by
  have hparts := inRange_of_unpack h
  have hfits : m.log2 < 53 := (Nat.log2_lt hm.ne').2 hparts.fits
  have hlowest := hparts.lowest
  have hfirst : -1074 < e → 52 ≤ m.log2 := fun he =>
    (Nat.le_log2 hm.ne').2 (normal_of_unpack h he)
  have htarget : max (((m.log2 + k : Nat) : Int) + 1 + (e - k) - 53) (-1074) = e := by omega
  unfold shiftToTargetExponent shiftToExponent
  rw [targetExponent_eq, log2_mul_two_pow hm, htarget]
  have hshift : (e - (e - (k : Int))).toNat = k := by omega
  dsimp only
  rw [hshift, shiftRight_exact, Int.sub_add_cancel]

/-- One is neutral, for infinities and no number as well. -/
theorem mul_one (x : Float) : x * 1 = x := by
  have hone : (1 : Float).toModel.unpack = .finite .positive (2 ^ 52) (-52) (by decide) := rfl
  have hkeep : UnpackedFloat.mul Format.binary64 x.toModel.unpack (1 : Float).toModel.unpack =
      x.toModel.unpack := by
    rw [hone]
    cases hx : x.toModel.unpack with
    | infinity s => cases s <;> rfl
    | notANumber => rfl
    | zero s => cases s <;> rfl
    | finite s m e hm =>
      have hsign : s * .positive = s := by cases s <;> rfl
      have hfirst := shift_of_unpack hx 52
      have hsecond := shift_of_unpack hx 0
      rw [Nat.pow_zero, Nat.mul_one, Int.natCast_zero, Int.sub_zero] at hsecond
      show UnpackedFloat.roundWithAccuracy Format.binary64 (s * .positive) (m * 2 ^ 52)
        (e - (52 : Nat)) .exact = _
      unfold UnpackedFloat.roundWithAccuracy
      rw [hfirst]
      have hrounded : (ExtendedMantissa.ofMantissaAndAccuracy m .exact).roundedMantissa = m := rfl
      dsimp only
      rw [hrounded, hsecond, hsign]
      exact dif_neg hm.ne'
  refine Float.toBits_inj.1 (UInt64.toBitVec_inj.1 ?_)
  show UnpackedFloat.pack Format.binary64 (UnpackedFloat.mul Format.binary64 x.toModel.unpack
    (1 : Float).toModel.unpack) = x.toModel.toBits.toBitVec
  rw [hkeep]
  exact pack_unpack_of_valid x.toModel.valid

end LocalSearch.Signs
