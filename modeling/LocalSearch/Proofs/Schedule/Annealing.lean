import LocalSearch.Proofs.Exact
import LocalSearch.Schedule.Annealing
/-!
# The periods of a temperature

The three periods of a schedule share one counter. A return to the best state puts off the reheat of
the same iteration, and a reheat puts off the cooling of its iteration by one. As long as no end of
a period leaves the 64-bit words, every period ends in time, whenever new best states are found.

* `AnnealingSchedule.Fits`: the ends of the periods that an iteration looks at are 64-bit words.
* `AnnealingSchedule.Advances`: what an iteration does when they are.
* `AnnealingSchedule.Course`: iterations and new best states, with the marks that they leave.
* `AnnealingSchedule.Behind`, `AnnealingSchedule.InTime`: what holds between two calls.
* `AnnealingSchedule.timely_of_course`: the periods end in time, and in exact arithmetic the
  temperature counts the coolings and the reheats.
-/

namespace LocalSearch.AnnealingSchedule

variable {α : Type}

/-! ## One iteration -/

section

variable {s s' : AnnealingSchedule α}

/-- The lengths of the periods and the factors of the temperature are the same. -/
structure SameRates (s s' : AnnealingSchedule α) : Prop where
  config : s'.config = s.config
  reheatRate : s'.reheatRate = s.reheatRate
  restoreBestLength : s'.restoreBestLength = s.restoreBestLength
  reheatLength : s'.reheatLength = s.reheatLength
  temperatureLength : s'.temperatureLength = s.temperatureLength

theorem SameRates.trans {t : AnnealingSchedule α} (h : SameRates s s') (h' : SameRates s' t) :
    SameRates s t where
  config := h'.config.trans h.config
  reheatRate := h'.reheatRate.trans h.reheatRate
  restoreBestLength := h'.restoreBestLength.trans h.restoreBestLength
  reheatLength := h'.reheatLength.trans h.reheatLength
  temperatureLength := h'.temperatureLength.trans h.temperatureLength

theorem sameRates_bestSaved (s : AnnealingSchedule α) : SameRates s s.bestSaved :=
  ⟨rfl, rfl, rfl, rfl, rfl⟩

theorem deadline_of_lt {start length : Nat} (h : start + length < UInt64.size) :
    deadline start length = start + length :=
  Nat.mod_eq_of_lt h

/-- An iteration after its count and the return to the best state. -/
def begun (s : AnnealingSchedule α) : AnnealingSchedule α :=
  if deadline s.lastImproving s.restoreBestLength < s.iteration + 1 then
    { s with iteration := s.iteration + 1, lastImproving := s.iteration + 1
             lastRestore := s.iteration + 1 }
  else { s with iteration := s.iteration + 1 }

theorem sameRates_begun (s : AnnealingSchedule α) : SameRates s s.begun := by
  unfold begun
  split <;> exact ⟨rfl, rfl, rfl, rfl, rfl⟩

@[simp]
theorem iteration_begun (s : AnnealingSchedule α) : s.begun.iteration = s.iteration + 1 := by
  unfold begun
  split <;> rfl

@[simp]
theorem lastReheat_begun (s : AnnealingSchedule α) : s.begun.lastReheat = s.lastReheat := by
  unfold begun
  split <;> rfl

@[simp]
theorem lastCooling_begun (s : AnnealingSchedule α) : s.begun.lastCooling = s.lastCooling := by
  unfold begun
  split <;> rfl

@[simp]
theorem temperature_begun (s : AnnealingSchedule α) : s.begun.temperature = s.temperature := by
  unfold begun
  split <;> rfl

end

section

variable [Scalar α] {s s' : AnnealingSchedule α} {turn : AnnealingTurn}

theorem advance_eq (s : AnnealingSchedule α) :
    s.advance =
      let restored := decide (deadline s.lastImproving s.restoreBestLength < s.iteration + 1)
      if deadline (max s.begun.lastReheat s.begun.lastImproving) s.begun.reheatLength
          < s.begun.iteration then
        ({ s.begun with
            temperature := s.begun.temperature * s.begun.reheatRate
            lastReheat := s.begun.iteration }, ⟨restored, true, false⟩)
      else if deadline s.begun.lastCooling s.begun.temperatureLength < s.begun.iteration then
        ({ s.begun with
            temperature := s.begun.temperature * s.begun.config.coolingRate
            lastCooling := s.begun.iteration
            stats := {} }, ⟨restored, false, true⟩)
      else (s.begun, ⟨restored, false, false⟩) :=
  rfl

theorem sameRates_advance (s : AnnealingSchedule α) : SameRates s s.advance.1 := by
  apply (sameRates_begun s).trans
  rw [advance_eq]
  dsimp only
  split_ifs <;> exact ⟨rfl, rfl, rfl, rfl, rfl⟩

theorem iteration_advance (s : AnnealingSchedule α) : s.advance.1.iteration = s.iteration + 1 := by
  rw [advance_eq]
  dsimp only
  split_ifs <;> exact iteration_begun s

theorem restored_advance (s : AnnealingSchedule α) :
    s.advance.2.restored =
      decide (deadline s.lastImproving s.restoreBestLength < s.iteration + 1) := by
  rw [advance_eq]
  dsimp only
  split_ifs <;> rfl

theorem lastImproving_advance (s : AnnealingSchedule α) :
    s.advance.1.lastImproving =
      if s.advance.2.restored then s.iteration + 1 else s.lastImproving := by
  have hbegun : s.advance.1.lastImproving = s.begun.lastImproving := by
    rw [advance_eq]
    dsimp only
    split_ifs <;> rfl
  rw [hbegun, restored_advance]
  unfold begun
  split <;> simp_all

theorem reheated_advance (s : AnnealingSchedule α) :
    s.advance.2.reheated =
      decide (deadline (max s.lastReheat s.advance.1.lastImproving) s.reheatLength
        < s.iteration + 1) := by
  have hbegun : s.advance.1.lastImproving = s.begun.lastImproving := by
    rw [advance_eq]
    dsimp only
    split_ifs <;> rfl
  rw [hbegun, advance_eq]
  simp only [lastReheat_begun, iteration_begun, (sameRates_begun s).reheatLength]
  split_ifs <;> simp_all

theorem lastReheat_advance (s : AnnealingSchedule α) :
    s.advance.1.lastReheat = if s.advance.2.reheated then s.iteration + 1 else s.lastReheat := by
  rw [advance_eq]
  dsimp only
  split_ifs <;> simp_all

/-- A reheat can be told from the iteration of the last one. -/
theorem justReheated_advance (hs : s.lastReheat ≤ s.iteration) :
    s.advance.1.justReheated = s.advance.2.reheated := by
  unfold justReheated
  rw [iteration_advance, lastReheat_advance]
  cases s.advance.2.reheated with
  | true => simp
  | false => simp; omega

theorem lastReheat_advance_le (hs : s.lastReheat ≤ s.iteration) :
    s.advance.1.lastReheat ≤ s.advance.1.iteration := by
  rw [iteration_advance, lastReheat_advance]
  split <;> omega

theorem nextOnReheat_advance (s : AnnealingSchedule α) :
    s.advance.1.nextOnReheat = s.nextOnReheat := by
  have hbegun : s.begun.nextOnReheat = s.nextOnReheat := by
    unfold begun
    split <;> rfl
  rw [advance_eq]
  dsimp only
  split_ifs <;> exact hbegun

/-- A decision counts neither an iteration nor a reheat. -/
theorem counters_accept (s : AnnealingSchedule α) (total reference delta : α)
    (random : Random.Stream) :
    (s.accept total reference delta random).2.1.iteration = s.iteration ∧
      (s.accept total reference delta random).2.1.lastReheat = s.lastReheat := by
  unfold accept
  dsimp only
  split
  · exact ⟨rfl, rfl⟩
  · exact ⟨rfl, rfl⟩

theorem cooled_advance (s : AnnealingSchedule α) :
    s.advance.2.cooled = (!s.advance.2.reheated &&
      decide (deadline s.lastCooling s.temperatureLength < s.iteration + 1)) := by
  rw [advance_eq]
  simp only [lastCooling_begun, iteration_begun, (sameRates_begun s).temperatureLength]
  split_ifs <;> simp_all

theorem lastCooling_advance (s : AnnealingSchedule α) :
    s.advance.1.lastCooling = if s.advance.2.cooled then s.iteration + 1 else s.lastCooling := by
  rw [advance_eq]
  dsimp only
  split_ifs <;> simp_all

theorem stats_advance (s : AnnealingSchedule α) :
    s.advance.1.stats = if s.advance.2.cooled then {} else s.stats := by
  have hbegun : s.begun.stats = s.stats := by
    unfold begun
    split <;> rfl
  rw [advance_eq]
  dsimp only
  split_ifs <;> simp_all

/-- An iteration can be seen to cool from the iteration of the last cooling. -/
theorem cooled_advance_iff (hs : s.lastCooling ≤ s.iteration) :
    s.advance.2.cooled = true ↔ s.advance.1.lastCooling ≠ s.lastCooling := by
  rw [lastCooling_advance]
  cases s.advance.2.cooled with
  | true => simp; omega
  | false => simp

theorem lastCooling_advance_le (hs : s.lastCooling ≤ s.iteration) :
    s.lastCooling ≤ s.advance.1.lastCooling ∧
      s.advance.1.lastCooling ≤ s.advance.1.iteration := by
  rw [lastCooling_advance, iteration_advance]
  split <;> omega

theorem temperature_advance (s : AnnealingSchedule α) :
    s.advance.1.temperature =
      if s.advance.2.reheated then s.temperature * s.reheatRate
      else if s.advance.2.cooled then s.temperature * s.config.coolingRate
      else s.temperature := by
  rw [advance_eq]
  simp only [temperature_begun, (sameRates_begun s).reheatRate, (sameRates_begun s).config]
  split_ifs <;> simp_all

/-- The ends of the periods that an iteration looks at are 64-bit words. One that reheats does not
look at the cooling period. -/
structure Fits (s : AnnealingSchedule α) : Prop where
  restore : s.lastImproving + s.restoreBestLength < UInt64.size
  reheat : max s.lastReheat s.advance.1.lastImproving + s.reheatLength < UInt64.size
  cooling : s.advance.2.reheated = false → s.lastCooling + s.temperatureLength < UInt64.size

instance : Decidable s.Fits :=
  decidable_of_iff
    (s.lastImproving + s.restoreBestLength < UInt64.size ∧
      max s.lastReheat s.advance.1.lastImproving + s.reheatLength < UInt64.size ∧
      (s.advance.2.reheated = false → s.lastCooling + s.temperatureLength < UInt64.size))
    ⟨fun h => ⟨h.1, h.2.1, h.2.2⟩, fun h => ⟨h.restore, h.reheat, h.cooling⟩⟩

/-- An iteration when no end of a period wraps around. -/
structure Advances (s s' : AnnealingSchedule α) (turn : AnnealingTurn) : Prop where
  iteration : s'.iteration = s.iteration + 1
  restored : turn.restored ↔ s.lastImproving + s.restoreBestLength < s'.iteration
  lastImproving : s'.lastImproving = if turn.restored then s'.iteration else s.lastImproving
  reheated : turn.reheated ↔ max s.lastReheat s'.lastImproving + s.reheatLength < s'.iteration
  lastReheat : s'.lastReheat = if turn.reheated then s'.iteration else s.lastReheat
  cooled : turn.cooled ↔
    turn.reheated = false ∧ s.lastCooling + s.temperatureLength < s'.iteration
  lastCooling : s'.lastCooling = if turn.cooled then s'.iteration else s.lastCooling

theorem Fits.advances (fits : s.Fits) : Advances s s.advance.1 s.advance.2 where
  iteration := iteration_advance s
  restored := by
    rw [restored_advance, deadline_of_lt fits.restore, iteration_advance, decide_eq_true_iff]
  lastImproving := by rw [lastImproving_advance, iteration_advance]
  reheated := by
    rw [reheated_advance, deadline_of_lt fits.reheat, iteration_advance, decide_eq_true_iff]
  lastReheat := by rw [lastReheat_advance, iteration_advance]
  cooled := by
    rw [cooled_advance, iteration_advance]
    cases hreheated : s.advance.2.reheated with
    | true => simp
    | false => simp [deadline_of_lt (fits.cooling hreheated)]
  lastCooling := by rw [lastCooling_advance, iteration_advance]

omit [Scalar α] in
/-- A return to the best state starts the reheating period anew, and a reheat comes before a
cooling. -/
theorem Advances.exclusive (h : Advances s s' turn) :
    ¬(turn.reheated ∧ turn.cooled) ∧ ¬(turn.restored ∧ turn.reheated) := by
  constructor
  · rintro ⟨hreheated, hcooled⟩
    have hnot := (h.cooled.1 hcooled).1
    rw [hreheated] at hnot
    cases hnot
  · rintro ⟨hrestored, hreheated⟩
    have himproving := h.lastImproving
    rw [if_pos hrestored] at himproving
    have hlate := h.reheated.1 hreheated
    omega

end

/-! ## Runs -/

/-- A mark of a run: an iteration with what it did, or a new best state with the iteration in which
it was found. -/
inductive Mark
  | turn (iteration : Nat) (turn : AnnealingTurn)
  | saved (iteration : Nat)

namespace Mark

def iteration : Mark → Nat
  | turn n _ => n
  | saved n => n

def saves : Mark → Bool
  | turn _ _ => false
  | saved _ => true

def restores : Mark → Bool
  | turn _ t => t.restored
  | saved _ => false

def reheats : Mark → Bool
  | turn _ t => t.reheated
  | saved _ => false

def cools : Mark → Bool
  | turn _ t => t.cooled
  | saved _ => false

end Mark

/-- Two marks of a run are as far apart as the lengths of the periods demand. -/
structure Apart (s : AnnealingSchedule α) (earlier later : Mark) : Prop where
  restores : earlier.restores → later.restores →
    earlier.iteration + s.restoreBestLength < later.iteration
  reheats : earlier.reheats → later.reheats →
    earlier.iteration + s.reheatLength < later.iteration
  cools : earlier.cools → later.cools →
    earlier.iteration + s.temperatureLength < later.iteration
  /-- A new best state and a return to it put off the next reheat. -/
  renewed : earlier.saves ∨ earlier.restores → later.reheats →
    earlier.iteration + s.reheatLength < later.iteration

/-- The counters are not behind a mark. -/
structure Mark.Before (m : Mark) (s : AnnealingSchedule α) : Prop where
  improving : m.saves ∨ m.restores → m.iteration ≤ s.lastImproving
  reheat : m.reheats → m.iteration ≤ s.lastReheat
  cooling : m.cools → m.iteration ≤ s.lastCooling

/-- No counter is ahead of the iteration. -/
structure Behind (s : AnnealingSchedule α) : Prop where
  lastImproving_le : s.lastImproving ≤ s.iteration
  lastReheat_le : s.lastReheat ≤ s.iteration
  lastCooling_le : s.lastCooling ≤ s.iteration

/-- No period is over, but for a cooling that the last iteration has put off by a reheat. -/
structure InTime (s : AnnealingSchedule α) : Prop where
  restore : s.iteration ≤ s.lastImproving + s.restoreBestLength
  reheat : s.iteration ≤ max s.lastReheat s.lastImproving + s.reheatLength
  cooling : s.iteration ≤ s.lastCooling + s.temperatureLength ∨
    s.iteration = s.lastCooling + s.temperatureLength + 1 ∧ s.lastReheat = s.iteration

section

variable {s s' : AnnealingSchedule α} {turn : AnnealingTurn} {m : Mark}

theorem Behind.bestSaved (h : s.Behind) : s.bestSaved.Behind where
  lastImproving_le := Nat.le_refl _
  lastReheat_le := h.lastReheat_le
  lastCooling_le := h.lastCooling_le

theorem InTime.bestSaved (h : s.InTime) : s.bestSaved.InTime where
  restore := Nat.le_add_right _ _
  reheat := Nat.le_trans (Nat.le_max_right _ _) (Nat.le_add_right _ _)
  cooling := h.cooling

theorem Advances.behind (step : Advances s s' turn) (h : s.Behind) : s'.Behind := by
  have hiteration := step.iteration
  obtain ⟨himproving, hreheat, hcooling⟩ := h
  constructor
  · rw [step.lastImproving]
    split_ifs <;> omega
  · rw [step.lastReheat]
    split_ifs <;> omega
  · rw [step.lastCooling]
    split_ifs <;> omega

/-- The counters never go back. -/
theorem Advances.counters_le (step : Advances s s' turn) (h : s.Behind) :
    s.lastImproving ≤ s'.lastImproving ∧ s.lastReheat ≤ s'.lastReheat ∧
      s.lastCooling ≤ s'.lastCooling := by
  have hiteration := step.iteration
  obtain ⟨himproving, hreheat, hcooling⟩ := h
  rw [step.lastImproving, step.lastReheat, step.lastCooling]
  split_ifs <;> omega

theorem Advances.inTime (step : Advances s s' turn) (rates : SameRates s s') (h : s.InTime)
    (hbehind : s.Behind) (hlength : 1 ≤ s.reheatLength) : s'.InTime where
  restore := by
    rw [rates.restoreBestLength, step.lastImproving]
    split_ifs with hrestored
    · exact Nat.le_add_right _ _
    · exact Nat.le_of_not_lt (mt step.restored.2 hrestored)
  reheat := by
    rw [rates.reheatLength, step.lastReheat]
    split_ifs with hreheated
    · omega
    · exact Nat.le_of_not_lt (mt step.reheated.2 hreheated)
  cooling := by
    have hiteration := step.iteration
    rw [rates.temperatureLength, step.lastCooling, step.lastReheat]
    by_cases hreheated : turn.reheated
    · -- two reheats in a row would need an empty reheating period
      have hlate := step.reheated.1 hreheated
      have hnot : ¬turn.cooled := fun hcooled => step.exclusive.1 ⟨hreheated, hcooled⟩
      rw [if_neg hnot, if_pos hreheated]
      rcases h.cooling with hcooling | hcooling
      · omega
      · omega
    · by_cases hcooled : turn.cooled
      · rw [if_pos hcooled]
        omega
      · have hcooling : ¬s.lastCooling + s.temperatureLength < s'.iteration := fun hlate =>
          hcooled (step.cooled.2 ⟨Bool.not_eq_true _ ▸ hreheated, hlate⟩)
        have hle := hbehind.lastCooling_le
        rw [if_neg hcooled]
        omega

theorem Mark.Before.bestSaved (h : m.Before s) (hs : s.Behind) : m.Before s.bestSaved where
  improving hm := Nat.le_trans (h.improving hm) hs.lastImproving_le
  reheat := h.reheat
  cooling := h.cooling

theorem Mark.before_saved (s : AnnealingSchedule α) :
    (Mark.saved s.iteration).Before s.bestSaved where
  improving _ := Nat.le_refl _
  reheat hm := by cases hm
  cooling hm := by cases hm

theorem Mark.Before.advances (h : m.Before s) (step : Advances s s' turn) (hs : s.Behind) :
    m.Before s' where
  improving hm := Nat.le_trans (h.improving hm) (step.counters_le hs).1
  reheat hm := Nat.le_trans (h.reheat hm) (step.counters_le hs).2.1
  cooling hm := Nat.le_trans (h.cooling hm) (step.counters_le hs).2.2

theorem Mark.before_turn (step : Advances s s' turn) :
    (Mark.turn s'.iteration turn).Before s' where
  improving hm := by
    have hrestored : turn.restored := hm.resolve_left Bool.false_ne_true
    rw [step.lastImproving, if_pos hrestored]
    exact Nat.le_refl _
  reheat hm := by
    have hreheated : turn.reheated := hm
    rw [step.lastReheat, if_pos hreheated]
    exact Nat.le_refl _
  cooling hm := by
    have hcooled : turn.cooled := hm
    rw [step.lastCooling, if_pos hcooled]
    exact Nat.le_refl _

/-- What an iteration does, it does later than the lengths of the periods after all marks. -/
theorem Mark.Before.apart (h : m.Before s) (step : Advances s s' turn) (hs : s.Behind) :
    Apart s m (.turn s'.iteration turn) where
  restores hm hturn := by
    have hmark := h.improving (.inr hm)
    have hlate := step.restored.1 hturn
    show _ < s'.iteration
    omega
  reheats hm hturn := by
    have hmark := h.reheat hm
    have hlate := step.reheated.1 hturn
    show _ < s'.iteration
    omega
  cools hm hturn := by
    have hmark := h.cooling hm
    have hlate := (step.cooled.1 hturn).2
    show _ < s'.iteration
    omega
  renewed hm hturn := by
    have hmark := h.improving hm
    have hmono := (step.counters_le hs).1
    have hlate := step.reheated.1 hturn
    show _ < s'.iteration
    omega

theorem Apart.saved (s : AnnealingSchedule α) (m : Mark) (n : Nat) : Apart s m (.saved n) where
  restores _ hsaved := by cases hsaved
  reheats _ hsaved := by cases hsaved
  cools _ hsaved := by cases hsaved
  renewed _ hsaved := by cases hsaved

theorem Apart.of_sameRates {m' : Mark} (h : Apart s' m m') (rates : SameRates s s') :
    Apart s m m' where
  restores := rates.restoreBestLength ▸ h.restores
  reheats := rates.reheatLength ▸ h.reheats
  cools := rates.temperatureLength ▸ h.cools
  renewed := rates.reheatLength ▸ h.renewed

end

section

variable [Scalar α] {s₀ s : AnnealingSchedule α} {marks : List Mark}

/-- Iterations and new best states in any order, with their marks. -/
inductive Course (s₀ : AnnealingSchedule α) : List Mark → AnnealingSchedule α → Prop
  | start : Course s₀ [] s₀
  | advance {marks : List Mark} {s : AnnealingSchedule α} (run : Course s₀ marks s)
    (fits : s.Fits) :
    Course s₀ (marks ++ [.turn s.advance.1.iteration s.advance.2]) s.advance.1
  | bestSaved {marks : List Mark} {s : AnnealingSchedule α} (run : Course s₀ marks s) :
    Course s₀ (marks ++ [.saved s.iteration]) s.bestSaved

namespace Course

theorem sameRates (run : Course s₀ marks s) : SameRates s₀ s := by
  induction run with
  | start => exact ⟨rfl, rfl, rfl, rfl, rfl⟩
  | advance _ _ ih => exact ih.trans (sameRates_advance _)
  | bestSaved _ ih => exact ih.trans (sameRates_bestSaved _)

theorem behind (run : Course s₀ marks s) (hstart : s₀.Behind) : s.Behind := by
  induction run with
  | start => exact hstart
  | advance _ fits ih => exact fits.advances.behind ih
  | bestSaved _ ih => exact ih.bestSaved

theorem inTime (run : Course s₀ marks s) (hstart : s₀.InTime) (hbehind : s₀.Behind)
    (hlength : 1 ≤ s₀.reheatLength) : s.InTime := by
  induction run with
  | start => exact hstart
  | advance run fits ih =>
    apply fits.advances.inTime (sameRates_advance _) ih (run.behind hbehind)
    rw [run.sameRates.reheatLength]
    exact hlength
  | bestSaved _ ih => exact ih.bestSaved

theorem before (run : Course s₀ marks s) (hstart : s₀.Behind) : ∀ m ∈ marks, m.Before s := by
  induction run with
  | start => simp
  | advance run fits ih =>
    intro m hm
    rcases List.mem_append.1 hm with hm | hm
    · exact (ih m hm).advances fits.advances (run.behind hstart)
    · rw [List.mem_singleton.1 hm]
      exact Mark.before_turn fits.advances
  | bestSaved run ih =>
    intro m hm
    rcases List.mem_append.1 hm with hm | hm
    · exact (ih m hm).bestSaved (run.behind hstart)
    · rw [List.mem_singleton.1 hm]
      exact Mark.before_saved _

theorem pairwise_apart (run : Course s₀ marks s) (hstart : s₀.Behind) :
    marks.Pairwise (Apart s₀) := by
  induction run with
  | start => exact List.Pairwise.nil
  | advance run fits ih =>
    rw [List.pairwise_append]
    refine ⟨ih, List.pairwise_singleton _ _, fun m hm m' hm' => ?_⟩
    rw [List.mem_singleton.1 hm']
    have hapart := (run.before hstart m hm).apart fits.advances (run.behind hstart)
    exact hapart.of_sameRates run.sameRates
  | bestSaved run ih =>
    rw [List.pairwise_append]
    refine ⟨ih, List.pairwise_singleton _ _, fun m _ m' hm' => ?_⟩
    rw [List.mem_singleton.1 hm']
    exact Apart.saved _ _ _

end Course

/-! ## After the start of a search -/

theorem one_le_wholeLength (length : α) : 1 ≤ wholeLength length :=
  Nat.le_max_right _ _

theorem behind_init (s : AnnealingSchedule α) (domainSize : Nat) : (s.init domainSize).Behind :=
  ⟨Nat.le_refl _, Nat.le_refl _, Nat.le_refl _⟩

theorem inTime_init (s : AnnealingSchedule α) (domainSize : Nat) : (s.init domainSize).InTime where
  restore := Nat.zero_le _
  reheat := Nat.zero_le _
  cooling := .inl (Nat.zero_le _)

omit [Scalar α] in
/-- A run keeps to the periods with which it began: what holds after its last iteration. -/
structure Timely (s₀ s : AnnealingSchedule α) (turn : AnnealingTurn) (marks : List Mark) :
    Prop where
  lengths : 1 ≤ s₀.restoreBestLength ∧ 1 ≤ s₀.reheatLength ∧ 1 ≤ s₀.temperatureLength
  counters : s.lastImproving ≤ s.iteration ∧ s.lastReheat ≤ s.iteration ∧
    s.lastCooling ≤ s.iteration
  restore : s.iteration - s.lastImproving ≤ s₀.restoreBestLength
  reheat : s.iteration - max s.lastReheat s.lastImproving ≤ s₀.reheatLength
  cooling : s.iteration - s.lastCooling ≤ s₀.temperatureLength + 1
  late : s.iteration - s.lastCooling = s₀.temperatureLength + 1 → turn.reheated
  not_reheated_and_cooled : ¬(turn.reheated ∧ turn.cooled)
  not_restored_and_reheated : ¬(turn.restored ∧ turn.reheated)
  apart : marks.Pairwise (Apart s₀)

theorem Course.timely {domainSize : Nat} (run : Course (s₀.init domainSize) marks s)
    (fits : s.Fits) :
    Timely (s₀.init domainSize) s.advance.1 s.advance.2
      (marks ++ [.turn s.advance.1.iteration s.advance.2]) := by
  have hlength : 1 ≤ (s₀.init domainSize).reheatLength := one_le_wholeLength _
  have hstart := behind_init s₀ domainSize
  have last := run.advance fits
  have hbehind := last.behind hstart
  have hin := last.inTime (inTime_init s₀ domainSize) hstart hlength
  have rates := last.sameRates
  have hrestore := hin.restore
  have hreheat := hin.reheat
  rw [rates.restoreBestLength] at hrestore
  rw [rates.reheatLength] at hreheat
  have hcooling := hin.cooling
  rw [rates.temperatureLength] at hcooling
  refine ⟨⟨one_le_wholeLength _, hlength, one_le_wholeLength _⟩,
    ⟨hbehind.lastImproving_le, hbehind.lastReheat_le, hbehind.lastCooling_le⟩, ?_, ?_, ?_, ?_,
    fits.advances.exclusive.1, fits.advances.exclusive.2, last.pairwise_apart hstart⟩
  · omega
  · omega
  · omega
  · intro hlate
    have hreheated := fits.advances.lastReheat
    by_cases hturn : s.advance.2.reheated
    · exact hturn
    · -- the last reheat would be one of an earlier iteration
      rw [if_neg hturn] at hreheated
      have hearlier := (run.behind hstart).lastReheat_le
      have hnext := fits.advances.iteration
      omega

end

/-! ## Exact arithmetic -/

section

variable {K : Type} [Field K] [LinearOrder K] [Scalar.Functions K]

theorem Course.temperature {s₀ s : AnnealingSchedule K} {marks : List Mark}
    (run : Course s₀ marks s) :
    s.temperature = s₀.temperature * s₀.config.coolingRate ^ marks.countP Mark.cools
      * s₀.reheatRate ^ marks.countP Mark.reheats := by
  induction run with
  | start => simp
  | @advance marks s run fits ih =>
    rw [temperature_advance, ih, run.sameRates.reheatRate, run.sameRates.config,
      List.countP_append, List.countP_append]
    by_cases hreheated : s.advance.2.reheated
    · have hcooled : s.advance.2.cooled = false := by
        rw [cooled_advance, hreheated]
        rfl
      simp [Mark.cools, Mark.reheats, hreheated, hcooled, pow_succ, mul_assoc]
    · by_cases hcooled : s.advance.2.cooled
      · simp [Mark.cools, Mark.reheats, hreheated, hcooled, pow_succ, mul_assoc, mul_comm,
          mul_left_comm]
      · simp [Mark.cools, Mark.reheats, hreheated, hcooled]
  | bestSaved run ih =>
    rw [List.countP_append, List.countP_append]
    exact ih

end

/-- Iterations and new best states after the start of a search: the periods end in time, and in
exact arithmetic the temperature counts the coolings and the reheats. -/
theorem timely_of_course :
    (∀ (α : Type) [Scalar α] (s₀ s : AnnealingSchedule α) (domainSize : Nat) (marks : List Mark),
      Course (s₀.init domainSize) marks s → s.Fits →
        Timely (s₀.init domainSize) s.advance.1 s.advance.2
          (marks ++ [.turn s.advance.1.iteration s.advance.2])) ∧
    ∀ (K : Type) [Field K] [LinearOrder K] [Scalar.Functions K] (s₀ s : AnnealingSchedule K)
      (domainSize : Nat) (marks : List Mark), Course (s₀.init domainSize) marks s →
        s.temperature = s₀.config.initialTemperature
          * s₀.config.coolingRate ^ marks.countP Mark.cools
          * s₀.reheatRate ^ marks.countP Mark.reheats := by
  constructor
  · intro α _ s₀ s domainSize marks run fits
    exact run.timely fits
  · intro K _ _ _ s₀ s domainSize marks run
    exact run.temperature

/-- Periods of one, two and three iterations, on domains of one value. -/
def brisk : AnnealingSchedule ℚ :=
  of { (AnnealingConfig.standard : AnnealingConfig ℚ) with
    tempLengthCoef := 1, reheatLengthCoef := 2, restoreBestLengthCoef := some 3 } false

/-- The second iteration cools, and a new best state puts off the reheat of the next one. -/
theorem timely_of_course_brisk :
    let s := (brisk.init 1).advance.1.advance.1.bestSaved
    ∃ marks, Course (brisk.init 1) marks s ∧ s.Fits ∧
      marks.map Mark.cools = [false, true, false] ∧
      Timely (brisk.init 1) s.advance.1 s.advance.2
        (marks ++ [.turn s.advance.1.iteration s.advance.2]) ∧
      s.temperature = brisk.config.initialTemperature
        * brisk.config.coolingRate ^ marks.countP Mark.cools
        * brisk.reheatRate ^ marks.countP Mark.reheats := by
  have first : Course (brisk.init 1) _ (brisk.init 1).advance.1 :=
    Course.start.advance (by decide +kernel)
  have run := (first.advance (by decide +kernel)).bestSaved
  have fits : (brisk.init 1).advance.1.advance.1.bestSaved.Fits := by decide +kernel
  exact ⟨_, run, fits, by decide +kernel, timely_of_course.1 ℚ brisk _ 1 _ run fits,
    timely_of_course.2 ℚ brisk _ 1 _ run⟩

end LocalSearch.AnnealingSchedule
