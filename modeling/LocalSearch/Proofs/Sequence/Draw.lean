import LocalSearch.Selector.Roulette
/-!
# Draws in range

The draws of a search end up below their bounds for every random stream. Nothing is assumed about
the arithmetic of the weights on a wheel.

* `Random.Stream.belowPositive_lt`, `Random.Stream.pair_lt`: numbers.
* `roulette_lt`: a position on a wheel.
-/

namespace LocalSearch

namespace Random.Stream

/-- A number that is made of one word, or of two if the low half of the product is near its end, is
in range: with a small low half the high half is not the greatest possible. -/
theorem scaled_lt {n x size : Nat} {carried : Prop} [Decidable carried] {s s' : Stream}
    (hx : x < size) (hn : 0 < n) :
    (if size - n < x * n % size then
      (if carried then x * n / size + 1 else x * n / size, s')
    else (x * n / size, s)).1 < n := by
  have hhigh : x * n / size < n := Nat.div_lt_of_lt_mul (Nat.mul_lt_mul_of_pos_right hx hn)
  split
  · rename_i hlow
    have hsum := Nat.div_add_mod (x * n) size
    have hproduct : x * n + n ≤ size * n := Nat.succ_mul x n ▸ Nat.mul_le_mul_right n hx
    have hraised : x * n / size + 1 < n := by
      refine Decidable.byContradiction fun hle => ?_
      -- otherwise the high half alone takes up so much of the product that the low half is small
      have hfull := Nat.mul_le_mul_left size (Nat.le_of_not_lt hle)
      rw [Nat.mul_succ] at hfull
      omega
    dsimp only
    split
    · exact hraised
    · exact hhigh
  · exact hhigh

theorem belowPositive_lt {n : Nat} (hn : 0 < n) (s : Stream) : (s.belowPositive n).1 < n := by
  unfold belowPositive
  split
  · exact scaled_lt s.next32.1.toNat_lt hn
  · exact scaled_lt s.next64.1.toNat_lt hn

theorem pair_lt {n : Nat} (hn : 2 ≤ n) (s : Stream) :
    (s.pair n).1.1 < n ∧ (s.pair n).1.2 < n := by
  unfold pair
  dsimp only
  have hfirst := belowPositive_lt (show 0 < n - 1 by omega) s
  have hsecond := belowPositive_lt (show 0 < n by omega) (s.belowPositive (n - 1)).2
  constructor
  · split
    · omega
    · omega
  · exact hsecond

end Random.Stream

/-! ## Wheels -/

variable {α : Type} [Scalar α] {spin weight : α} {rest : List α} {index last : Nat}

theorem goRound_of_le (h : weight ≤ 0) :
    goRound spin index last (weight :: rest) = goRound spin (index + 1) last rest :=
  if_pos h

theorem goRound_of_lt (h : ¬ weight ≤ 0) (hspin : spin < weight) :
    goRound spin index last (weight :: rest) = index :=
  (if_neg h).trans (if_pos hspin)

theorem goRound_of_not_lt (h : ¬ weight ≤ 0) (hspin : ¬ spin < weight) :
    goRound spin index last (weight :: rest) = goRound (spin - weight) (index + 1) index rest :=
  (if_neg h).trans (if_neg hspin)

/-- Going round a wheel ends on it, or at the last index that was passed before. -/
theorem goRound_lt {bound : Nat} (weights : List α) (spin : α) (index last : Nat)
    (hlast : last < bound) (hindex : index + weights.length ≤ bound) :
    goRound spin index last weights < bound := by
  induction weights generalizing spin index last with
  | nil => exact hlast
  | cons weight rest ih =>
    rw [List.length_cons] at hindex
    by_cases hweight : weight ≤ 0
    · rw [goRound_of_le hweight]
      exact ih spin (index + 1) last hlast (by omega)
    · by_cases hspin : spin < weight
      · rw [goRound_of_lt hweight hspin]
        omega
      · rw [goRound_of_not_lt hweight hspin]
        exact ih (spin - weight) (index + 1) index (by omega) (by omega)

theorem roulette_of_spun {weights : List α} (hne : weights ≠ [])
    (hspun : (0 : α) < totalWeight weights ∧ Scalar.isFinite (totalWeight weights) = true)
    (random : Random.Stream) :
    roulette weights random =
      (some (goRound ((random.unit : α × Random.Stream).1 * totalWeight weights) 0 0 weights),
        (random.unit : α × Random.Stream).2) := by
  unfold roulette
  rw [if_neg (by simpa using hne)]
  exact if_pos hspun

theorem roulette_of_not_spun {weights : List α} (hne : weights ≠ [])
    (hspun : ¬ ((0 : α) < totalWeight weights ∧ Scalar.isFinite (totalWeight weights) = true))
    (random : Random.Stream) :
    roulette weights random =
      (some (random.belowPositive weights.length).1,
        (random.belowPositive weights.length).2) := by
  unfold roulette
  rw [if_neg (by simpa using hne)]
  exact if_neg hspun

/-- A wheel that is not empty gives one of its positions. -/
theorem roulette_lt {weights : List α} (h : weights ≠ []) (random : Random.Stream) :
    ∃ i, (roulette weights random).1 = some i ∧ i < weights.length := by
  have hpos : 0 < weights.length := List.length_pos_iff.2 h
  by_cases hspun : (0 : α) < totalWeight weights ∧ Scalar.isFinite (totalWeight weights) = true
  · rw [roulette_of_spun h hspun]
    exact ⟨_, rfl, goRound_lt weights _ 0 0 hpos (by omega)⟩
  · rw [roulette_of_not_spun h hspun]
    exact ⟨_, rfl, Random.Stream.belowPositive_lt hpos random⟩

end LocalSearch
