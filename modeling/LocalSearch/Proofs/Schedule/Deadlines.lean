import LocalSearch.Proofs.Schedule.Annealing
/-!
# Periods that do not end

The lengths of the periods come from coefficients and are as large as a 64-bit word allows. A period
that starts at the beginning of a search then does not end in it. One that starts later, after a new
best state, wraps around, and is over at once. In fewer than 2³² calls this cannot happen to lengths
that leave room for the iterations of the calls, and it does happen to all others.

* `AnnealingSchedule.Call`, `AnnealingSchedule.runs`: what is done to a schedule.
* `AnnealingSchedule.Fitting`: no iteration of a run wraps around.
* `AnnealingSchedule.Safe`: lengths that leave enough room.
* `AnnealingSchedule.Unprepared`, `AnnealingSchedule.Started`: what is known after some calls.
* `AnnealingSchedule.fitting_iff_safe`: the runs that do not wrap around.
-/

namespace LocalSearch.AnnealingSchedule

variable {α : Type} [Scalar α] {s s' : AnnealingSchedule α}

/-! ## Calls -/

/-- What is done to a schedule: a search starts on domains of a total size, an iteration is over, or
there is a new best state. -/
inductive Call
  | init (domainSize : Nat)
  | advance
  | bestSaved
deriving DecidableEq

def call (s : AnnealingSchedule α) : Call → AnnealingSchedule α
  | .init domainSize => s.init domainSize
  | .advance => s.advance.1
  | .bestSaved => s.bestSaved

/-- A schedule after calls. -/
def runs (s : AnnealingSchedule α) (calls : List Call) : AnnealingSchedule α :=
  calls.foldl call s

/-- The ends of the periods are 64-bit words in every iteration of a run. -/
def Fitting (s : AnnealingSchedule α) : List Call → Prop
  | [] => True
  | c :: calls => (c = .advance → s.Fits) ∧ (s.call c).Fitting calls

theorem config_call (s : AnnealingSchedule α) (c : Call) : (s.call c).config = s.config := by
  cases c with
  | init d => rfl
  | advance => exact (sameRates_advance s).config
  | bestSaved => rfl

theorem runs_append (s : AnnealingSchedule α) (calls calls' : List Call) :
    s.runs (calls ++ calls') = (s.runs calls).runs calls' :=
  List.foldl_append

theorem fitting_append {calls calls' : List Call} :
    s.Fitting (calls ++ calls') ↔ s.Fitting calls ∧ (s.runs calls).Fitting calls' := by
  induction calls generalizing s with
  | nil => exact ⟨fun h => ⟨trivial, h⟩, fun h => h.2⟩
  | cons c calls ih =>
    show _ ∧ (s.call c).Fitting (calls ++ calls') ↔ (_ ∧ _) ∧ _
    rw [ih, and_assoc]
    rfl

/-- The latest iteration, in fewer than 2³² calls, from which a reheating period can start: each
iteration and each new best state is a call, and a return to the best state is none. -/
def latestMark (restoreBestLength : Nat) : Nat :=
  if restoreBestLength + 1 ∣ 2 ^ 32 - 2 then 2 ^ 32 - 2
  else if restoreBestLength + 3 < 2 ^ 32 then 2 ^ 32 - 3
  else 2 ^ 32 - 4

/-- The lengths leave room for the iterations of fewer than 2³² calls. -/
structure Safe (s : AnnealingSchedule α) : Prop where
  restore : s.restoreBestLength + (2 ^ 32 - 4) < UInt64.size
  reheat : s.reheatLength + latestMark s.restoreBestLength < UInt64.size
  cooling : s.temperatureLength < UInt64.size

theorem le_latestMark (length : Nat) : 2 ^ 32 - 4 ≤ latestMark length := by
  unfold latestMark
  split_ifs <;> omega

theorem le_latestMark_of_lt (length : Nat) (h : length + 3 < 2 ^ 32) :
    2 ^ 32 - 3 ≤ latestMark length := by
  unfold latestMark
  split_ifs
  · omega
  · omega

/-- A multiple of the number of iterations between two returns to the best state. -/
theorem le_latestMark_of_dvd {length n : Nat} (hdvd : length + 1 ∣ n) (hn : n ≤ 2 ^ 32 - 2) :
    n ≤ latestMark length := by
  unfold latestMark
  split_ifs with hlast hroom
  · exact hn
  · by_cases heq : n = 2 ^ 32 - 2
    · exact absurd (heq ▸ hdvd) hlast
    · omega
  · rcases Nat.eq_zero_or_pos n with hzero | hpos
    · omega
    · have hle := Nat.le_of_dvd hpos hdvd
      by_cases heq : n = 2 ^ 32 - 2
      · exact absurd (heq ▸ hdvd) hlast
      · omega

theorem Safe.of_config {domainSize : Nat} (h : (s.init domainSize).Safe)
    (hconfig : s'.config = s.config) : (s'.init domainSize).Safe := by
  obtain ⟨restore, reheat, cooling⟩ := h
  unfold init at *
  dsimp only at *
  rw [← hconfig] at *
  exact ⟨restore, reheat, cooling⟩

/-! ## Room enough -/

/-- Before the first search, after some calls. -/
structure Unprepared (calls : Nat) (s : AnnealingSchedule α) : Prop where
  lengths : s.restoreBestLength = 1 ∧ s.reheatLength = 1 ∧ s.temperatureLength = 1
  behind : s.Behind
  iteration_le : s.iteration ≤ calls

/-- In a search, after some calls. A late mark is one of a call that was no iteration, or of a
return to the best state. -/
structure Started (calls : Nat) (s : AnnealingSchedule α) : Prop where
  safe : s.Safe
  behind : s.Behind
  iteration_lt : s.iteration < calls
  restore : s.iteration ≤ s.lastImproving + s.restoreBestLength
  improving : s.lastImproving = 0 ∨ s.lastImproving + 2 ≤ calls ∨
    s.restoreBestLength < s.lastImproving
  /-- Nothing but iterations since the start. -/
  only : s.iteration + 1 = calls → s.restoreBestLength + 1 ∣ s.lastImproving
  reheat : s.lastReheat = 0 ∨ s.reheatLength < s.lastReheat
  cooling : s.lastCooling = 0 ∨ s.temperatureLength < s.lastCooling

variable {k : Nat}

theorem unprepared_of (config : AnnealingConfig α) (nextOnReheat : Bool) :
    (of config nextOnReheat).Unprepared 0 where
  lengths := ⟨rfl, rfl, rfl⟩
  behind := ⟨Nat.le_refl _, Nat.le_refl _, Nat.le_refl _⟩
  iteration_le := Nat.le_refl _

theorem started_init {domainSize : Nat} (h : (s.init domainSize).Safe) :
    (s.init domainSize).Started (k + 1) where
  safe := h
  behind := behind_init s domainSize
  iteration_lt := Nat.succ_pos k
  restore := Nat.zero_le _
  improving := .inl rfl
  only _ := Nat.dvd_zero _
  reheat := .inl rfl
  cooling := .inl rfl

theorem Unprepared.fits (h : s.Unprepared k) (hk : k + 1 < 2 ^ 32) : s.Fits := by
  have hsize : UInt64.size = 2 ^ 64 := rfl
  obtain ⟨⟨hrestore, hreheat, hcooling⟩, ⟨himproving_le, hreheat_le, hcooling_le⟩, hiteration⟩ := h
  refine ⟨by omega, ?_, by omega⟩
  rw [lastImproving_advance]
  split_ifs <;> omega

theorem Unprepared.advance (h : s.Unprepared k) (hk : k + 1 < 2 ^ 32) :
    s.advance.1.Unprepared (k + 1) := by
  have rates := sameRates_advance s
  obtain ⟨hrestore, hreheat, hcooling⟩ := h.lengths
  refine ⟨⟨rates.restoreBestLength.trans hrestore, rates.reheatLength.trans hreheat,
    rates.temperatureLength.trans hcooling⟩, (h.fits hk).advances.behind h.behind, ?_⟩
  rw [iteration_advance]
  exact Nat.succ_le_succ h.iteration_le

omit [Scalar α] in
theorem Unprepared.bestSaved (h : s.Unprepared k) : s.bestSaved.Unprepared (k + 1) where
  lengths := h.lengths
  behind := h.behind.bestSaved
  iteration_le := Nat.le_succ_of_le h.iteration_le

omit [Scalar α] in
theorem Started.restore_fits (h : s.Started k) (hk : k + 1 < 2 ^ 32) :
    s.lastImproving + s.restoreBestLength < UInt64.size := by
  have hsize : UInt64.size = 2 ^ 64 := rfl
  have hsafe := h.safe.restore
  have hle := h.behind.lastImproving_le
  have hlt := h.iteration_lt
  rcases h.improving with hzero | hsaved | hrestored
  · omega
  · omega
  · omega

/-- The iteration of a return to the best state is a multiple of its period, or comes after a call
that was no iteration. -/
theorem Started.lastImproving_advance_le (h : s.Started k) (hk : k + 1 < 2 ^ 32) :
    s.advance.1.lastImproving ≤ latestMark s.restoreBestLength := by
  have hle := h.behind.lastImproving_le
  have hlt := h.iteration_lt
  have hearly := le_latestMark s.restoreBestLength
  rw [lastImproving_advance, restored_advance, deadline_of_lt (h.restore_fits hk)]
  split_ifs with hrestored
  · have hlast := h.restore
    have hrestored := of_decide_eq_true hrestored
    by_cases honly : s.iteration + 1 = k
    · apply le_latestMark_of_dvd
      · have hnow : s.iteration + 1 = s.lastImproving + (s.restoreBestLength + 1) := by omega
        rw [hnow]
        exact Nat.dvd_add (h.only honly) (Nat.dvd_refl _)
      · omega
    · have hroom := le_latestMark_of_lt s.restoreBestLength (by omega)
      omega
  · rcases h.improving with hzero | hsaved | hreturned
    · omega
    · omega
    · have hroom := le_latestMark_of_lt s.restoreBestLength (by omega)
      omega

theorem Started.fits (h : s.Started k) (hk : k + 1 < 2 ^ 32) : s.Fits := by
  have hsize : UInt64.size = 2 ^ 64 := rfl
  have hlt := h.iteration_lt
  refine ⟨h.restore_fits hk, ?_, fun _ => ?_⟩
  · have himproving := h.lastImproving_advance_le hk
    have hsafe := h.safe.reheat
    have hle := h.behind.lastReheat_le
    rcases h.reheat with hzero | hreheated
    · omega
    · omega
  · have hsafe := h.safe.cooling
    have hle := h.behind.lastCooling_le
    rcases h.cooling with hzero | hcooled
    · omega
    · omega

theorem Started.advance (h : s.Started k) (hk : k + 1 < 2 ^ 32) :
    s.advance.1.Started (k + 1) := by
  have step := (h.fits hk).advances
  have rates := sameRates_advance s
  have hiteration := step.iteration
  have hlt := h.iteration_lt
  constructor
  case safe =>
    obtain ⟨restore, reheat, cooling⟩ := h.safe
    rw [← rates.restoreBestLength] at restore reheat
    rw [← rates.reheatLength] at reheat
    rw [← rates.temperatureLength] at cooling
    exact ⟨restore, reheat, cooling⟩
  case behind => exact step.behind h.behind
  case iteration_lt => omega
  case restore =>
    rw [step.lastImproving, rates.restoreBestLength]
    split_ifs with hrestored
    · omega
    · exact Nat.le_of_not_lt (mt step.restored.2 hrestored)
  case improving =>
    rw [step.lastImproving, rates.restoreBestLength]
    split_ifs with hrestored
    · have hlate := step.restored.1 hrestored
      omega
    · have himproving := h.improving
      omega
  case only =>
    intro honly
    have hdvd := h.only (by omega)
    rw [step.lastImproving, rates.restoreBestLength]
    split_ifs with hrestored
    · have hlate := step.restored.1 hrestored
      have hlast := h.restore
      have hnow : s.advance.1.iteration = s.lastImproving + (s.restoreBestLength + 1) := by omega
      rw [hnow]
      exact Nat.dvd_add hdvd (Nat.dvd_refl _)
    · exact hdvd
  case reheat =>
    rw [step.lastReheat, rates.reheatLength]
    split_ifs with hreheated
    · have hlate := step.reheated.1 hreheated
      omega
    · exact h.reheat
  case cooling =>
    rw [step.lastCooling, rates.temperatureLength]
    split_ifs with hcooled
    · have hlate := (step.cooled.1 hcooled).2
      omega
    · exact h.cooling

omit [Scalar α] in
theorem Started.bestSaved (h : s.Started k) : s.bestSaved.Started (k + 1) where
  safe := ⟨h.safe.restore, h.safe.reheat, h.safe.cooling⟩
  behind := h.behind.bestSaved
  iteration_lt := Nat.lt_succ_of_lt h.iteration_lt
  restore := Nat.le_add_right _ _
  improving := .inr (.inl (Nat.add_le_add_right h.iteration_lt 1))
  only honly := absurd (Nat.succ.inj honly) (Nat.ne_of_lt h.iteration_lt)
  reheat := h.reheat
  cooling := h.cooling

/-- Lengths that leave enough room never wrap around. The induction is on the calls that remain. -/
theorem fitting_of_safe (calls : List Call) (hk : k + calls.length < 2 ^ 32)
    (hstate : s.Unprepared k ∨ s.Started k)
    (hsafe : ∀ domainSize, .init domainSize ∈ calls → (s.init domainSize).Safe) :
    s.Fitting calls := by
  induction calls generalizing k s with
  | nil => trivial
  | cons c calls ih =>
    have hcount : k + 1 + calls.length < 2 ^ 32 := by
      rw [List.length_cons] at hk
      omega
    have hsafe' : ∀ domainSize, .init domainSize ∈ calls → ((s.call c).init domainSize).Safe :=
      fun domainSize hmem =>
        (hsafe domainSize (List.mem_cons_of_mem c hmem)).of_config (config_call s c)
    cases c with
    | init domainSize =>
      have hstart := hsafe domainSize List.mem_cons_self
      exact ⟨nofun, ih hcount (.inr (started_init hstart)) hsafe'⟩
    | advance =>
      rcases hstate with hstate | hstate
      · exact ⟨fun _ => hstate.fits (by omega), ih hcount (.inl (hstate.advance (by omega))) hsafe'⟩
      · exact ⟨fun _ => hstate.fits (by omega), ih hcount (.inr (hstate.advance (by omega))) hsafe'⟩
    | bestSaved =>
      have hnext := hstate.imp Unprepared.bestSaved Started.bestSaved
      exact ⟨nofun, ih hcount hnext hsafe'⟩

/-! ## Room too little -/

/-- Iterations without a new best state. -/
def advances (n : Nat) : List Call :=
  List.replicate n .advance

theorem runs_advances_succ (s : AnnealingSchedule α) (n : Nat) :
    s.runs (advances (n + 1)) = (s.runs (advances n)).advance.1 := by
  unfold advances
  rw [List.replicate_succ', runs_append]
  rfl

theorem iteration_runs_advances (s : AnnealingSchedule α) (n : Nat) :
    (s.runs (advances n)).iteration = s.iteration + n := by
  induction n with
  | zero => rfl
  | succ n ih => rw [runs_advances_succ, iteration_advance, ih, Nat.add_assoc]

theorem sameRates_runs_advances (s : AnnealingSchedule α) (n : Nat) :
    SameRates s (s.runs (advances n)) := by
  induction n with
  | zero => exact ⟨rfl, rfl, rfl, rfl, rfl⟩
  | succ n ih =>
    rw [runs_advances_succ]
    exact ih.trans (sameRates_advance _)

theorem fits_of_fitting {calls : List Call} (h : s.Fitting (calls ++ [.advance])) :
    (s.runs calls).Fits :=
  (fitting_append.1 h).2.1 rfl

/-- Without a new best state, the returns to the best state come at multiples of their period. -/
theorem lastImproving_runs_advances (hstart : s.lastImproving = s.iteration) (n : Nat)
    (h : s.Fitting (advances n)) :
    ∃ m r, s.restoreBestLength + 1 ∣ m ∧ r ≤ s.restoreBestLength ∧ n = m + r ∧
      (s.runs (advances n)).lastImproving = s.iteration + m := by
  induction n with
  | zero => exact ⟨0, 0, Nat.dvd_zero _, Nat.zero_le _, rfl, hstart⟩
  | succ n ih =>
    have hsplit : advances (n + 1) = advances n ++ [.advance] := List.replicate_succ'
    rw [hsplit] at h
    obtain ⟨m, r, hm, hr, hn, hlast⟩ := ih (fitting_append.1 h).1
    have step := (fits_of_fitting h).advances
    have hrestored := step.restored
    rw [step.iteration, iteration_runs_advances, hlast,
      (sameRates_runs_advances s n).restoreBestLength] at hrestored
    rw [runs_advances_succ, step.lastImproving, step.iteration, iteration_runs_advances, hlast]
    by_cases hlate : s.iteration + m + s.restoreBestLength < s.iteration + n + 1
    · refine ⟨m + (s.restoreBestLength + 1), 0, Nat.dvd_add hm (Nat.dvd_refl _), Nat.zero_le _,
        ?_, ?_⟩
      · omega
      · rw [if_pos (hrestored.2 hlate)]
        omega
    · refine ⟨m, r + 1, hm, ?_, ?_, ?_⟩
      · omega
      · omega
      · rw [if_neg (mt hrestored.1 hlate)]

/-- In step with the period, the last iteration returns to the best state. -/
theorem lastImproving_of_dvd (hstart : s.lastImproving = s.iteration) {n : Nat}
    (hdvd : s.restoreBestLength + 1 ∣ n) (h : s.Fitting (advances n)) :
    (s.runs (advances n)).lastImproving = s.iteration + n := by
  obtain ⟨m, r, hm, hr, hn, hlast⟩ := lastImproving_runs_advances hstart n h
  have hrest : s.restoreBestLength + 1 ∣ r := (Nat.dvd_add_right hm).1 (hn ▸ hdvd)
  have hzero : r = 0 := Nat.eq_zero_of_dvd_of_lt hrest (Nat.lt_succ_of_le hr)
  rw [hlast]
  omega

theorem fits_advances {n : Nat} (h : s.Fitting (advances (n + 1))) :
    (s.runs (advances n)).Fits := by
  have hsplit : advances (n + 1) = advances n ++ [.advance] := List.replicate_succ'
  rw [hsplit] at h
  exact fits_of_fitting h

omit [Scalar α] in
/-- The start of a search. -/
structure AtStart (s : AnnealingSchedule α) : Prop where
  iteration : s.iteration = 0
  lastImproving : s.lastImproving = 0
  lastReheat : s.lastReheat = 0
  lastCooling : s.lastCooling = 0
  one_le_reheatLength : 1 ≤ s.reheatLength

theorem atStart_init (s : AnnealingSchedule α) (domainSize : Nat) : (s.init domainSize).AtStart :=
  ⟨rfl, rfl, rfl, rfl, one_le_wholeLength _⟩

/-- After a start, which is a call too, no run wraps around in fewer than 2³² calls. -/
def Endures (s : AnnealingSchedule α) : Prop :=
  ∀ calls : List Call, (∀ domainSize, .init domainSize ∉ calls) → calls.length + 1 < 2 ^ 32 →
    s.Fitting calls

theorem Endures.fitting_advances (h : s.Endures) {n : Nat} (hn : n + 1 < 2 ^ 32) :
    s.Fitting (advances n) := by
  apply h
  · intro domainSize hmem
    cases List.eq_of_mem_replicate hmem
  · unfold advances
    rw [List.length_replicate]
    exact hn

/-- A new best state in the middle of a run. -/
theorem Endures.fitting_saved (h : s.Endures) {n m : Nat} (hn : n + m + 2 < 2 ^ 32) :
    (s.runs (advances n)).bestSaved.Fitting (advances m) := by
  have hrun : s.Fitting (advances n ++ .bestSaved :: advances m) := by
    apply h
    · intro domainSize hmem
      rcases List.mem_append.1 hmem with hmem | hmem
      · cases List.eq_of_mem_replicate hmem
      · rcases List.mem_cons.1 hmem with hmem | hmem
        · cases hmem
        · cases List.eq_of_mem_replicate hmem
    · unfold advances
      rw [List.length_append, List.length_cons, List.length_replicate, List.length_replicate]
      omega
  exact (fitting_append.1 hrun).2.2

omit [Scalar α] in
theorem lastImproving_bestSaved (s : AnnealingSchedule α) :
    s.bestSaved.lastImproving = s.bestSaved.iteration :=
  rfl

theorem iteration_saved (s : AnnealingSchedule α) (n : Nat) :
    (s.runs (advances n)).bestSaved.iteration = s.iteration + n :=
  iteration_runs_advances s n

theorem sameRates_saved (s : AnnealingSchedule α) (n : Nat) :
    SameRates s (s.runs (advances n)).bestSaved :=
  (sameRates_runs_advances s n).trans (sameRates_bestSaved _)

/-- A new best state in the iteration before the last one. -/
theorem AtStart.restore (hs : s.AtStart) (h : s.Endures) :
    s.restoreBestLength + (2 ^ 32 - 4) < UInt64.size := by
  obtain ⟨n, hn⟩ : ∃ n, n = 2 ^ 32 - 4 := ⟨_, rfl⟩
  have fits : (s.runs (advances n)).bestSaved.Fits :=
    fits_advances (h.fitting_saved (n := n) (m := 1) (by omega))
  have hrestore := fits.restore
  rw [lastImproving_bestSaved, iteration_saved, (sameRates_saved s n).restoreBestLength,
    hs.iteration] at hrestore
  omega

/-- The first iteration does not reheat, so it looks at the cooling period. -/
theorem AtStart.cooling (hs : s.AtStart) (h : s.Endures) : s.temperatureLength < UInt64.size := by
  have fits : s.Fits := fits_advances (h.fitting_advances (n := 1) (by omega))
  have step := fits.advances
  have hlength := hs.one_le_reheatLength
  have hnot : s.advance.2.reheated = false := by
    rw [← Bool.not_eq_true]
    intro hreheated
    have hlate := step.reheated.1 hreheated
    rw [step.iteration, hs.iteration] at hlate
    omega
  have hcooling := fits.cooling hnot
  rw [hs.lastCooling, Nat.zero_add] at hcooling
  exact hcooling

/-- A reheating period that starts from the latest possible mark. -/
theorem AtStart.reheat (hs : s.AtStart) (h : s.Endures) :
    s.reheatLength + latestMark s.restoreBestLength < UInt64.size := by
  have hzero := hs.iteration
  -- whatever starts the period, the next iteration has to fit
  suffices hmark : ∃ t : AnnealingSchedule α, t.Fits ∧ SameRates s t ∧
      latestMark s.restoreBestLength ≤ t.advance.1.lastImproving by
    obtain ⟨t, fits, rates, hle⟩ := hmark
    have hfits := fits.reheat
    rw [rates.reheatLength] at hfits
    omega
  unfold latestMark
  split_ifs with hlast hroom
  · -- a return to the best state in the last iteration
    obtain ⟨n, hn⟩ : ∃ n, n = 2 ^ 32 - 3 := ⟨_, rfl⟩
    have fitting := h.fitting_advances (n := n + 1) (by omega)
    refine ⟨s.runs (advances n), fits_advances fitting, sameRates_runs_advances s n, ?_⟩
    have hdvd : s.restoreBestLength + 1 ∣ n + 1 := by
      rw [hn]
      exact hlast
    rw [← runs_advances_succ,
      lastImproving_of_dvd (hs.lastImproving.trans hs.iteration.symm) hdvd fitting]
    omega
  · -- a return to the best state a period after a new one
    obtain ⟨n, hn⟩ : ∃ n, n = 2 ^ 32 - 4 - s.restoreBestLength := ⟨_, rfl⟩
    have rates := sameRates_saved s n
    have fitting := h.fitting_saved (n := n) (m := s.restoreBestLength + 1) (by omega)
    refine ⟨(s.runs (advances n)).bestSaved.runs (advances s.restoreBestLength),
      fits_advances fitting, rates.trans (sameRates_runs_advances _ _), ?_⟩
    have hdvd : (s.runs (advances n)).bestSaved.restoreBestLength + 1 ∣
        s.restoreBestLength + 1 := by
      rw [rates.restoreBestLength]
    rw [← runs_advances_succ, lastImproving_of_dvd (lastImproving_bestSaved _) hdvd fitting,
      iteration_saved]
    omega
  · -- a new best state in the iteration before the last one
    obtain ⟨n, hn⟩ : ∃ n, n = 2 ^ 32 - 4 := ⟨_, rfl⟩
    have fitting := h.fitting_saved (n := n) (m := 1) (by omega)
    refine ⟨(s.runs (advances n)).bestSaved, fits_advances fitting, sameRates_saved s n, ?_⟩
    rw [lastImproving_advance, lastImproving_bestSaved, iteration_saved]
    split_ifs <;> omega

/-! ## The lengths that never wrap around -/

/-- Fewer than 2³² calls wrap around no end of a period exactly if the lengths of every search leave
room enough. -/
theorem fitting_iff_safe (config : AnnealingConfig α) (nextOnReheat : Bool)
    (domainSizes : Set Nat) :
    (∀ calls : List Call, calls.length < 2 ^ 32 →
        (∀ domainSize, .init domainSize ∈ calls → domainSize ∈ domainSizes) →
          (of config nextOnReheat).Fitting calls) ↔
      ∀ domainSize ∈ domainSizes, ((of config nextOnReheat).init domainSize).Safe := by
  constructor
  · intro h domainSize hmem
    have endures : ((of config nextOnReheat).init domainSize).Endures := by
      intro calls hinit hlength
      have hrun := h (.init domainSize :: calls) hlength (by
        intro other hother
        rcases List.mem_cons.1 hother with hother | hother
        · cases hother
          exact hmem
        · exact absurd hother (hinit other))
      exact hrun.2
    have start := atStart_init (of config nextOnReheat) domainSize
    exact ⟨start.restore endures, start.reheat endures, start.cooling endures⟩
  · intro hsafe calls hlength hsizes
    apply fitting_of_safe calls (k := 0) (by omega) (.inl (unprepared_of config nextOnReheat))
    intro domainSize hmem
    exact hsafe domainSize (hsizes domainSize hmem)

/-- A restore coefficient that stands for never. -/
def patient : AnnealingConfig ℚ :=
  { AnnealingConfig.standard with restoreBestLengthCoef := some (2 ^ 64) }

/-- After a new best state the period of such a coefficient is over at once. -/
theorem not_fitting_patient :
    patient.validate = .ok () ∧
      ¬(of patient false).Fitting [.init 2, .advance, .bestSaved, .advance] ∧
      ((of patient false).runs [.init 2, .advance, .bestSaved]).advance.2.restored = true := by
  refine ⟨?_, ?_, by decide +kernel⟩
  · unfold AnnealingConfig.validate
    rw [if_neg (by decide +kernel), if_neg (by decide +kernel), if_neg (by decide +kernel)]
  · intro h
    exact absurd (h.2.2.2.1 rfl) (by decide +kernel)

end LocalSearch.AnnealingSchedule
