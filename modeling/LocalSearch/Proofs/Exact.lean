import Mathlib
import LocalSearch.Scalar
/-!
# Exact arithmetic

The definitions of this library read over a field with a linear order. There the operations of
`Scalar` are those of the field, and sums do not depend on the order of their terms.

* `Scalar.Functions`: what the field does not give: functions with real values, rounding, and texts.
* `Scalar.ofField`: the field as a number type.
* `Scalar.sum_eq`: a sum is the sum of the field.
* `Scalar.larger_eq`, `Scalar.power_eq`: the greater of two numbers and a power are those of the
  field.
* `Scalar.signedPower_eq`: so is a power whose exponent fits in a 32-bit word with a sign.
-/

namespace LocalSearch.Scalar

/-- The functions and texts of a number type. -/
class Functions (K : Type) where
  exp : K → K
  pow : K → K → K
  floor : K → K
  toCount : K → Nat
  toNanoseconds? : K → Option Nat
  display : K → String
  outline : K → String
  fixed : Nat → K → String
  parse? : String → Option K

variable {K : Type} [Field K] [LinearOrder K] [Functions K]

instance ofField : Scalar K where
  ofNat n := n
  ofScientific m s e := if s then m / 10 ^ e else m * 10 ^ e
  beq a b := decide (a = b)
  decLt := inferInstance
  decLe := inferInstance
  exp := Functions.exp
  pow := Functions.pow
  floor := Functions.floor
  toCount := Functions.toCount
  toNanoseconds? := Functions.toNanoseconds?
  display := Functions.display
  outline := Functions.outline
  fixed := Functions.fixed
  parse? := Functions.parse?

@[simp]
theorem ofNat_eq (n : Nat) : (Scalar.ofNat n : K) = n := rfl

/-- The two ways to read a numeral. -/
@[simp]
theorem zero_eq : (@OfNat.ofNat K 0 Scalar.instOfNat) = 0 :=
  Nat.cast_zero

@[simp]
theorem sum_eq (xs : List K) : Scalar.sum xs = xs.sum := by
  rw [List.sum_eq_foldl]
  show xs.foldl (· + ·) (-(@OfNat.ofNat K 0 Scalar.instOfNat)) = _
  rw [zero_eq, neg_zero]

theorem numeral_eq (n : Nat) : (@OfNat.ofNat K n Scalar.instOfNat) = (n : K) := rfl

@[simp]
theorem larger_eq (a b : K) : Scalar.larger a b = max a b := by
  have hself : (a == a) = true := decide_eq_true rfl
  unfold larger
  rw [if_pos hself, max_def_lt]

theorem powerFrom_eq (acc a : K) (n : Nat) : powerFrom acc a n = acc * a ^ n := by
  fun_induction powerFrom acc a n with
  | case1 acc a n acc' hlast =>
    have hn : n = n % 2 := by omega
    rcases Nat.mod_two_eq_zero_or_one n with hbit | hbit
    · simp [acc', hn.trans hbit]
    · simp [acc', hn.trans hbit]
  | case2 acc a n acc' hmore ih =>
    -- the square raised to half of an exponent is the power without its last bit
    have hn : n = 2 * (n / 2) + n % 2 := (Nat.div_add_mod n 2).symm
    rw [ih, ← pow_two, ← pow_mul]
    rcases Nat.mod_two_eq_zero_or_one n with hbit | hbit
    · have hacc : acc' = acc := if_neg (by omega)
      rw [hacc]
      congr 2
      omega
    · have hacc : acc' = acc * a := if_pos hbit
      rw [hacc, mul_assoc, ← pow_succ']
      congr 2
      omega

@[simp]
theorem power_eq (a : K) (n : Nat) : Scalar.power a n = a ^ n := by
  show powerFrom (@OfNat.ofNat K 1 Scalar.instOfNat) a n = a ^ n
  rw [powerFrom_eq, numeral_eq, Nat.cast_one, one_mul]

theorem signedPower_eq (a : K) {n : Nat} (h : n < 2 ^ 31) : Scalar.signedPower a n = a ^ n := by
  have hword : n % UInt32.size = n := Nat.mod_eq_of_lt (h.trans (by decide))
  unfold signedPower
  simp only [hword]
  exact (if_pos h).trans (power_eq a n)

/-- The first exponent that is read as a negative one. -/
theorem signedPower_lowest (a : K) : Scalar.signedPower a (2 ^ 31) = 1 / a ^ (2 ^ 31) := by
  have hsign : ¬2 ^ 31 % UInt32.size < UInt32.size / 2 := by decide
  have hmagnitude : UInt32.size - 2 ^ 31 % UInt32.size = 2 ^ 31 := by decide
  unfold signedPower
  simp only [hsign, hmagnitude, if_false]
  rw [power_eq, numeral_eq, Nat.cast_one]

/-- The rational numbers. The exponential function is cut off after some terms of its series, powers
have whole exponents, and texts are fractions. -/
instance : Functions ℚ where
  exp q := ((List.range 30).map fun n => q ^ n / (n.factorial : ℚ)).sum
  pow a b := a ^ b.floor
  floor q := q.floor
  toCount q := min (q + 1 / 2).floor.toNat (2 ^ 64 - 1)
  toNanoseconds? q := if 0 ≤ q ∧ q < 2 ^ 64 then some (q * 10 ^ 9).floor.toNat else none
  display := toString
  outline := toString
  fixed _ := toString
  parse? s := s.toNat?.map (·)

end LocalSearch.Scalar
