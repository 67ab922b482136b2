import LocalSearch.Proofs.Exact
import LocalSearch.Schedule.Deluge
/-!
# The water level and its floor

An iteration tests the bound against a floor, a multiple of the reference that depends on the
number of reheats. In exact arithmetic, whether the bound an iteration leaves is above the floor the
next one tests depends on the reference only if the iteration set the first bound or reheated. A
negative reference turns the order of the bound rates around, and a lower rate above one lifts the
floor with each reheat. After too many reheats the exponent of the floor no longer fits in its word.

* `DelugeSchedule.Reached`: the schedules that calls of any kind lead to.
* `DelugeSchedule.Afloat`: the bound is not below the floor that the rates and the number of reheats
  give.
* `DelugeSchedule.afloat_iff`: when an iteration leaves the bound afloat.
-/

namespace LocalSearch.DelugeSchedule

variable {K : Type} [Field K] [LinearOrder K] [Scalar.Functions K]
variable {c : DelugeConfig K} {s : DelugeSchedule K} {reference bound : K}

/-! ## The states of a schedule -/

/-- What calls of any kind make of a new schedule. -/
inductive Reached (c : DelugeConfig K) : DelugeSchedule K → Prop
  | fresh (coolInAccept nextOnReheat : Bool) : Reached c (.of c coolInAccept nextOnReheat)
  | reset {s : DelugeSchedule K} (h : Reached c s) : Reached c s.reset
  | setBound {s : DelugeSchedule K} (h : Reached c s) (bound : K) : Reached c (s.setBound bound)
  | bestSaved {s : DelugeSchedule K} (h : Reached c s) : Reached c s.bestSaved
  | shiftBound {s : DelugeSchedule K} (h : Reached c s) (delta : K) : Reached c (s.shiftBound delta)
  | cool {s : DelugeSchedule K} (h : Reached c s) : Reached c s.cool
  | advance {s : DelugeSchedule K} (h : Reached c s) (reference : K) :
      Reached c (s.advance reference).1
  | alterBound {s : DelugeSchedule K} (h : Reached c s) (reference : K) :
      Reached c (s.alterBound reference)

/-- The first call of a schedule without bound. -/
theorem advance_of_none (hbound : s.bound = none) :
    s.advance reference =
      ({ s with
        bound := some (s.config.upperBoundRate * reference), iteration := 0, lastImproving := 0 },
        false) := by
  simp only [advance, hbound]

/-- The bound that a call tests. -/
def tested (s : DelugeSchedule K) (bound : K) : K :=
  if s.coolInAccept then bound else bound * s.config.coolRate

theorem advance_of_lt (hbound : s.bound = some bound) (hlow : s.tested bound < s.floor reference) :
    s.advance reference =
      ({ s with
        iteration := s.iteration + 1, idle := (s.idle + 1) % UInt32.size,
        bound := some (s.raised ((s.idle + 1) % UInt32.size) reference) }, true) := by
  simp only [advance, hbound]
  exact if_pos hlow

theorem advance_of_le (hbound : s.bound = some bound) (hhigh : s.floor reference ≤ s.tested bound) :
    s.advance reference =
      ({ s with iteration := s.iteration + 1, bound := some (s.tested bound) }, false) := by
  simp only [advance, hbound]
  exact if_neg hhigh.not_gt

theorem config_advance (s : DelugeSchedule K) (reference : K) :
    (s.advance reference).1.config = s.config := by
  cases hbound : s.bound with
  | none => rw [advance_of_none hbound]
  | some bound =>
    rcases lt_or_ge (s.tested bound) (s.floor reference) with hlow | hhigh
    · rw [advance_of_lt hbound hlow]
    · rw [advance_of_le hbound hhigh]

namespace Reached

theorem config_eq (h : Reached c s) : s.config = c := by
  induction h with
  | fresh => rfl
  | reset _ ih => exact ih
  | setBound _ _ ih => exact ih
  | bestSaved _ ih => exact ih
  | shiftBound _ _ ih => exact ih
  | cool _ ih => exact ih
  | advance _ reference ih => exact (config_advance _ reference).trans ih
  | alterBound _ _ ih => exact ih

/-- A schedule without bound has not reheated: every call that counts a reheat sets a bound. -/
theorem idle_eq_zero (h : Reached c s) (hbound : s.bound = none) : s.idle = 0 := by
  induction h with
  | fresh => rfl
  | reset => rfl
  | setBound => cases hbound
  | bestSaved => rfl
  | shiftBound _ _ ih => exact ih (Option.map_eq_none_iff.mp hbound)
  | cool _ ih => exact ih (Option.map_eq_none_iff.mp hbound)
  | @advance s _ reference ih =>
    cases hold : s.bound with
    | none =>
      rw [advance_of_none hold]
      exact ih hold
    | some bound =>
      rcases lt_or_ge (s.tested bound) (s.floor reference) with hlow | hhigh
      · rw [advance_of_lt hold hlow] at hbound
        cases hbound
      · rw [advance_of_le hold hhigh] at hbound
        cases hbound
  | alterBound => cases hbound

end Reached

/-! ## The level and the floor -/

/-- There is a bound, and it is not below the lower rate raised to one more than the number of
reheats, times the reference. -/
def Afloat (s : DelugeSchedule K) (reference : K) : Prop :=
  ∃ bound, s.bound = some bound ∧ s.config.lowerBoundRate ^ (1 + s.idle) * reference ≤ bound

/-- The floor, as long as its exponent fits in a 32-bit word with a sign. -/
theorem floor_eq (hword : s.idle + 1 < 2 ^ 31) (reference : K) :
    s.floor reference = s.config.lowerBoundRate ^ (1 + s.idle) * reference := by
  unfold floor
  rw [Scalar.signedPower_eq _ (Nat.add_comm .. ▸ hword)]

theorem afloat_iff_le (hbound : s.bound = some bound) :
    s.Afloat reference ↔ s.config.lowerBoundRate ^ (1 + s.idle) * reference ≤ bound := by
  unfold Afloat
  constructor
  · rintro ⟨other, hother, hle⟩
    cases hbound.symm.trans hother
    exact hle
  · intro hle
    exact ⟨bound, hbound, hle⟩

/-- The settings that are not refused have ordered bound rates, and the lower one is positive. -/
theorem rates_of_validate (h : c.validate = .ok ()) :
    0 < c.lowerBoundRate ∧ c.lowerBoundRate ≤ c.upperBoundRate := by
  unfold DelugeConfig.validate at h
  split_ifs at h with hcool hrates
  simpa using hrates

section
variable [IsStrictOrderedRing K]

/-- The floor is below the level of a first call just if the reference is not negative, as the rates
are ordered. -/
theorem lower_mul_le_upper_mul_iff {lower upper : K} (hrates : lower ≤ upper) :
    lower * reference ≤ upper * reference ↔ 0 ≤ reference ∨ lower = upper := by
  rcases hrates.lt_or_eq with hlt | rfl
  · have hdiff : 0 < upper - lower := sub_pos.mpr hlt
    rw [← sub_nonneg, ← sub_mul, mul_nonneg_iff_of_pos_left hdiff]
    exact (or_iff_left hlt.ne).symm
  · exact iff_of_true le_rfl (Or.inr rfl)

/-- The floor is below the level of a reheat if the reference is below one of its two terms. -/
theorem mul_le_max_iff {floor level : K} :
    floor * reference ≤ max (reference + 2) (level * reference) ↔
      (floor - 1) * reference ≤ 2 ∨ (floor - level) * reference ≤ 0 := by
  rw [le_max_iff, sub_mul, sub_mul, one_mul, sub_le_iff_le_add', sub_nonpos]

/-- A factor of at most one and a reference of at least minus two. -/
theorem sub_one_mul_le_two {factor : K} (hpos : 0 < factor) (hone : factor ≤ 1)
    (hreference : -2 ≤ reference) : (factor - 1) * reference ≤ 2 := by
  have hgap : 0 ≤ 1 - factor := sub_nonneg.mpr hone
  calc (factor - 1) * reference = (1 - factor) * -reference := by ring
    _ ≤ (1 - factor) * 2 := mul_le_mul_of_nonneg_left (neg_le.mp hreference) hgap
    _ ≤ 1 * 2 := by gcongr; exact sub_le_self _ hpos.le
    _ = 2 := one_mul 2

/-- The call that sets the first bound. -/
theorem afloat_of_none_iff (hvalid : c.validate = .ok ()) (h : Reached c s)
    (hbound : s.bound = none) :
    (s.advance reference).1.Afloat reference ↔
      0 ≤ reference ∨ c.lowerBoundRate = c.upperBoundRate := by
  rw [advance_of_none hbound, afloat_iff_le rfl]
  simp only [h.idle_eq_zero hbound, h.config_eq, Nat.add_zero, pow_one]
  exact lower_mul_le_upper_mul_iff (rates_of_validate hvalid).2

/-- The call that reheats. -/
theorem afloat_of_reheated_iff (h : Reached c s)
    (hword : (s.advance reference).1.idle + 1 < 2 ^ 31)
    (hreheat : (s.advance reference).2 = true) :
    let factor := c.lowerBoundRate ^ (1 + (s.advance reference).1.idle)
    (s.advance reference).1.Afloat reference ↔
      (factor - 1) * reference ≤ 2 ∨
        (factor - c.upperBoundRate ^ (s.advance reference).1.idle) * reference ≤ 0 := by
  intro factor
  cases hbound : s.bound with
  | none =>
    rw [advance_of_none hbound] at hreheat
    cases hreheat
  | some bound =>
    rcases lt_or_ge (s.tested bound) (s.floor reference) with hlow | hhigh
    · simp only [factor, advance_of_lt hbound hlow] at hword ⊢
      rw [afloat_iff_le rfl, h.config_eq, raised, Scalar.larger_eq,
        Scalar.signedPower_eq _ (Nat.lt_of_succ_lt hword), h.config_eq]
      exact mul_le_max_iff
    · rw [advance_of_le hbound hhigh] at hreheat
      cases hreheat

omit [IsStrictOrderedRing K] in
/-- The call that neither sets the first bound nor reheats: it has tested the bound. -/
theorem afloat_of_tested (hbound : s.bound ≠ none)
    (hword : (s.advance reference).1.idle + 1 < 2 ^ 31)
    (hreheat : (s.advance reference).2 = false) :
    (s.advance reference).1.Afloat reference := by
  obtain ⟨bound, hbound⟩ := Option.ne_none_iff_exists'.mp hbound
  rcases lt_or_ge (s.tested bound) (s.floor reference) with hlow | hhigh
  · rw [advance_of_lt hbound hlow] at hreheat
    cases hreheat
  · rw [advance_of_le hbound hhigh] at hword ⊢
    exact ⟨s.tested bound, rfl, floor_eq hword reference ▸ hhigh⟩

/-- When a lower rate of at most one keeps a reheated bound afloat. -/
theorem afloat_of_le_one (hvalid : c.validate = .ok ()) (h : Reached c s)
    (hone : c.lowerBoundRate ≤ 1) (hreference : -2 ≤ reference) (hbound : s.bound ≠ none)
    (hword : (s.advance reference).1.idle + 1 < 2 ^ 31) :
    (s.advance reference).1.Afloat reference := by
  cases hreheat : (s.advance reference).2 with
  | false => exact afloat_of_tested hbound hword hreheat
  | true =>
    have hpos := (rates_of_validate hvalid).1
    refine (afloat_of_reheated_iff h hword hreheat).mpr (.inl ?_)
    exact sub_one_mul_le_two (pow_pos hpos _) (pow_le_one₀ hpos.le hone) hreference

/-- When an iteration leaves the bound afloat: by what the iteration did, with the number of reheats
after it, as long as the exponent of the next floor fits in a 32-bit word with a sign. With a lower
rate of at most one it does for every reference that is not negative, and from the second call on
for every reference of at least minus two. -/
theorem afloat_iff (hvalid : c.validate = .ok ()) (h : Reached c s) (reference : K)
    (hword : (s.advance reference).1.idle + 1 < 2 ^ 31) :
    let after := (s.advance reference).1
    let reheated := (s.advance reference).2
    let factor := c.lowerBoundRate ^ (1 + after.idle)
    (s.bound = none →
      (after.Afloat reference ↔ 0 ≤ reference ∨ c.lowerBoundRate = c.upperBoundRate)) ∧
    (s.bound ≠ none → reheated = false → after.Afloat reference) ∧
    (reheated = true →
      (after.Afloat reference ↔
        (factor - 1) * reference ≤ 2 ∨
          (factor - c.upperBoundRate ^ after.idle) * reference ≤ 0)) ∧
    (c.lowerBoundRate ≤ 1 → 0 ≤ reference → after.Afloat reference) ∧
    (c.lowerBoundRate ≤ 1 → -2 ≤ reference → s.bound ≠ none → after.Afloat reference) := by
  intro after reheated factor
  refine ⟨fun hbound => afloat_of_none_iff hvalid h hbound,
    fun hbound => afloat_of_tested hbound hword,
    fun hreheat => afloat_of_reheated_iff h hword hreheat, fun hone hpos => ?_,
    fun hone hreference hbound => afloat_of_le_one hvalid h hone hreference hbound hword⟩
  by_cases hbound : s.bound = none
  · exact (afloat_of_none_iff hvalid h hbound).mpr (.inl hpos)
  · exact afloat_of_le_one hvalid h hone ((neg_nonpos.mpr zero_le_two).trans hpos) hbound hword

end

/-! ## A level that stays under its floor -/

/-- A schedule with the usual settings. -/
def usual : DelugeSchedule ℚ := .of .standard true false

theorem validate_standard : (DelugeConfig.standard : DelugeConfig ℚ).validate = .ok () := by
  decide +kernel

theorem reached_usual : Reached usual.config usual :=
  .fresh ..

/-- With the usual settings and a positive reference, also a reheat leaves the bound afloat. -/
theorem afloat_usual :
    usual.config.validate = .ok () ∧ Reached usual.config (usual.setBound 1) ∧
      ((usual.setBound 1).advance 100).1.idle + 1 < 2 ^ 31 ∧
      ((usual.setBound 1).advance 100).2 = true ∧
      ((usual.setBound 1).advance 100).1.Afloat 100 := by
  have h : Reached usual.config (usual.setBound 1) := reached_usual.setBound 1
  have hone : usual.config.lowerBoundRate ≤ 1 := by decide +kernel
  have hword : ((usual.setBound 1).advance 100).1.idle + 1 < 2 ^ 31 := by decide +kernel
  refine ⟨validate_standard, h, hword, by decide +kernel, ?_⟩
  exact (afloat_iff validate_standard h 100 hword).2.2.2.1 hone (by norm_num)

/-- The bound falls by half in every call, and the lower rate is a tenth. -/
def sinking : DelugeConfig ℚ := ⟨1 / 2, 1, 1 / 10, none⟩

/-- The schedule at a level of minus one after some reheats. -/
def sunk (reheats : Nat) : DelugeSchedule ℚ :=
  { config := sinking, coolInAccept := false, nextOnReheat := true, bound := some (-1)
    iteration := reheats, idle := reheats, lastImproving := 0 }

theorem sinking_lower_pos : 0 < sinking.lowerBoundRate := by norm_num [sinking]

theorem sinking_lower_le_one : sinking.lowerBoundRate ≤ 1 := by norm_num [sinking]

theorem sinking_pow_le (reheats : Nat) : sinking.lowerBoundRate ^ (1 + reheats) ≤ 1 / 10 := by
  rw [Nat.add_comm, pow_succ]
  apply mul_le_of_le_one_left sinking_lower_pos.le
  exact pow_le_one₀ sinking_lower_pos.le sinking_lower_le_one

theorem tested_sunk (reheats : Nat) : (sunk reheats).tested (-1) = -(1 / 2) := by
  norm_num [tested, sunk, sinking]

/-- With a negative reference, half the level is below the floor, and a reheat leads back to it. -/
theorem advance_sunk {reheats : Nat} (hword : reheats + 1 < 2 ^ 31) :
    (sunk reheats).advance (-3) = (sunk (reheats + 1), true) := by
  have hlow : (sunk reheats).tested (-1) < (sunk reheats).floor (-3) := by
    have hpow : (sunk reheats).config.lowerBoundRate ^ (1 + (sunk reheats).idle) ≤ 1 / 10 :=
      sinking_pow_le reheats
    rw [floor_eq hword, tested_sunk]
    linarith
  have hcount : (reheats + 1) % UInt32.size = reheats + 1 :=
    Nat.mod_eq_of_lt (hword.trans (by decide))
  have hraised : (sunk reheats).raised (reheats + 1) (-3) = -1 := by
    have hupper : (sunk reheats).config.upperBoundRate ^ (reheats + 1) = 1 := one_pow _
    rw [raised, Scalar.larger_eq, Scalar.signedPower_eq _ hword, hupper]
    decide +kernel
  rw [advance_of_lt rfl hlow]
  simp only [sunk, hcount] at hraised ⊢
  rw [hraised]

theorem reached_sunk {reheats : Nat} (hword : reheats < 2 ^ 31) : Reached sinking (sunk reheats) := by
  induction reheats with
  | zero => exact (Reached.fresh false true).setBound (-1)
  | succ reheats ih =>
    have h := (ih (by omega)).advance (-3)
    rwa [advance_sunk hword] at h

/-- The first exponent that is read as a negative one puts the floor below the reference: the call
does not reheat. -/
theorem advance_sunk_of_overflow :
    (sunk (2 ^ 31 - 1)).advance (-3) =
      ({ sunk (2 ^ 31 - 1) with iteration := 2 ^ 31, bound := some (-(1 / 2)) }, false) := by
  have hhigh : (sunk (2 ^ 31 - 1)).floor (-3) ≤ (sunk (2 ^ 31 - 1)).tested (-1) := by
    have hexponent : 1 + (sunk (2 ^ 31 - 1)).idle = 2 ^ 31 := rfl
    have hrate : (1 : ℚ) ≤ 1 / (sunk (2 ^ 31 - 1)).config.lowerBoundRate ^ (2 ^ 31) := by
      apply (one_le_div (pow_pos sinking_lower_pos _)).mpr
      exact pow_le_one₀ sinking_lower_pos.le sinking_lower_le_one
    rw [floor, hexponent, Scalar.signedPower_lowest, tested_sunk]
    linarith
  rw [advance_of_le rfl hhigh, tested_sunk]
  rfl

/-- With the usual settings and a negative reference, the bound is below the floor after the first
call. The second one reheats, which leaves the bound below the floor, so that the third one reheats
as well; and that one does not even raise the bound.

A call that does not reheat leaves the bound below the floor if the number of reheats is one for
which the exponent of the floor is read as a negative one. -/
theorem not_afloat_usual :
    let first := (usual.advance (-100)).1
    let second := first.advance (-100)
    let third := second.1.advance (-100)
    usual.config.validate = .ok () ∧ Reached usual.config first ∧ ¬first.Afloat (-100) ∧
      second.2 = true ∧ second.1.bound = some (-98) ∧ ¬second.1.Afloat (-100) ∧
      third.2 = true ∧ third.1.bound = some (-98) ∧ ¬third.1.Afloat (-100) ∧
      ∃ s : DelugeSchedule ℚ, sinking.validate = .ok () ∧ Reached sinking s ∧ s.bound ≠ none ∧
        (s.advance (-3)).1.idle = 2 ^ 31 - 1 ∧ (s.advance (-3)).2 = false ∧
        ¬(s.advance (-3)).1.Afloat (-3) := by
  intro first second third
  have hfirst : first.bound = some (-105) := by decide +kernel
  have hsecond : second.1.bound = some (-98) := by decide +kernel
  have hthird : third.1.bound = some (-98) := by decide +kernel
  rw [afloat_iff_le hfirst, afloat_iff_le hsecond, afloat_iff_le hthird]
  refine ⟨validate_standard, reached_usual.advance _, by decide +kernel, by decide +kernel, hsecond,
    by decide +kernel, by decide +kernel, hthird, by decide +kernel, ?_⟩
  refine ⟨sunk (2 ^ 31 - 1), by decide +kernel, reached_sunk (by decide), nofun, ?_⟩
  rw [advance_sunk_of_overflow]
  refine ⟨rfl, rfl, ?_⟩
  rw [afloat_iff_le rfl, not_le]
  have hpow := sinking_pow_le (2 ^ 31 - 1)
  show -(1 / 2) < sinking.lowerBoundRate ^ (1 + (2 ^ 31 - 1)) * -3
  linarith

end LocalSearch.DelugeSchedule
