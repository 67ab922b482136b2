import LocalSearch.Proofs.Exact
import LocalSearch.Model.Penalty
import LocalSearch.Proofs.Selection.Chain
import LocalSearch.Proofs.Selection.Verdict
/-!
# The statistics of a cooling period

A temperature counts the accepted moves of its cooling period, and a cooling clears the counts.
Simulated annealing makes an iteration before each draw and counts a move when it decides on it;
group acceptance makes an iteration when a move has won its vote and counts the move only if the
iteration has not gone back to the best state. In both cases nothing that could fail or cool comes
between the count and the answer, so the counts are those of the moves that were returned.

* `AcceptStats.Counts`: the counts are those of some moves.
* `AnnealingSchedule.Reckons`: the statistics are those of some moves, put down one by one.
* `AnnealingSchedule.Lapse`: what becomes of it in a call.
* `SimulatedAnnealing.attempt_lapse`, `Group.attempt_lapse`: what an attempt preserves.
* `BasicStrategy.Periods`: a strategy in a search, with the moves of its cooling period.
* `BasicStrategy.counts_of_periods`: the statistics count these moves.
-/

namespace LocalSearch

open Act

variable {G M V α : Type}

/-- The effect of a proposed move. That of a lazy change is not known yet. -/
def Proposal.effects (p? : Option (Proposal V α)) : List α :=
  (p?.bind Proposal.delta?).toList

variable [Scalar α]

/-! ## Counts -/

namespace AcceptStats

/-- The counts are those of moves with the given effects, by their signs. A number that differs from
itself has no sign and counts as zero. -/
structure Counts (deltas : List α) (s : AcceptStats) : Prop where
  improving : s.improving = deltas.countP fun d => d < 0
  worsening : s.worsening = deltas.countP fun d => ¬d < 0 ∧ 0 < d
  zero : s.zero = deltas.countP fun d => ¬d < 0 ∧ ¬0 < d

theorem counts_nil : Counts ([] : List α) {} :=
  ⟨rfl, rfl, rfl⟩

/-- In exact arithmetic every number has a sign. -/
theorem counts_iff {K : Type} [Field K] [LinearOrder K] [Scalar.Functions K] {deltas : List K}
    {s : AcceptStats} :
    s.Counts deltas ↔ s.improving = deltas.countP (· < 0) ∧ s.worsening = deltas.countP (0 < ·) ∧
      s.zero = deltas.count 0 := by
  have hworsening : (deltas.countP fun d => ¬d < Scalar.ofNat 0 ∧ Scalar.ofNat 0 < d) =
      deltas.countP (0 < ·) := by
    refine List.countP_congr fun d _ => ?_
    simp only [Scalar.ofNat_eq, Nat.cast_zero, decide_eq_true_eq, and_iff_right_iff_imp]
    exact fun h => h.not_gt
  have hzero : (deltas.countP fun d => ¬d < Scalar.ofNat 0 ∧ ¬Scalar.ofNat 0 < d) =
      deltas.count 0 := by
    refine List.countP_congr fun d _ => ?_
    simp only [Scalar.ofNat_eq, Nat.cast_zero, decide_eq_true_eq, beq_iff_eq]
    exact ⟨fun h => le_antisymm (not_lt.1 h.2) (not_lt.1 h.1), fun h => by simp [h]⟩
  have hzeros : (@OfNat.ofNat K 0 Scalar.instOfNat) = 0 := Scalar.zero_eq
  constructor
  · intro h
    refine ⟨?_, hworsening ▸ h.worsening, hzero ▸ h.zero⟩
    rw [h.improving, hzeros]
  · rintro ⟨h₁, h₂, h₃⟩
    exact ⟨by rw [h₁, hzeros], h₂.trans hworsening.symm, h₃.trans hzero.symm⟩

/-- A move more. -/
theorem Counts.record {deltas : List α} {s : AcceptStats} (h : s.Counts deltas) (delta : α) :
    (s.record delta).Counts (deltas ++ [delta]) := by
  obtain ⟨himproving, hworsening, hzero⟩ := h
  unfold AcceptStats.record
  by_cases hlt : delta < 0
  · rw [if_pos hlt]
    constructor <;> simp [*, List.countP_append]
  · by_cases hgt : 0 < delta
    · rw [if_neg hlt, if_pos hgt]
      constructor <;> simp [*, List.countP_append]
    · rw [if_neg hlt, if_neg hgt]
      constructor <;> simp [*, List.countP_append]

end AcceptStats

/-! ## One iteration -/

namespace AnnealingSchedule

variable {s s' : AnnealingSchedule α} {n : Nat} {deltas : List α}

/-- The statistics are those of the given moves. -/
structure Reckons (deltas : List α) (s : AnnealingSchedule α) : Prop where
  counts : s.stats.Counts deltas
  behind : s.lastCooling ≤ s.iteration

theorem reckons_of (config : AnnealingConfig α) (nextOnReheat : Bool) :
    (of config nextOnReheat).Reckons [] :=
  ⟨AcceptStats.counts_nil, Nat.le_refl _⟩

theorem reckons_init (s : AnnealingSchedule α) (domainSize : Nat) :
    (s.init domainSize).Reckons [] :=
  ⟨AcceptStats.counts_nil, Nat.le_refl _⟩

/-- A schedule in a call that began with the moves `deltas` and the last cooling in iteration `n`,
with the moves of the call so far. If the temperature has cooled in the call, the moves from before
it are no longer counted. -/
structure Lapse (n : Nat) (deltas moves : List α) (s : AnnealingSchedule α) : Prop where
  reckons : s.Reckons ((if s.lastCooling = n then deltas else []) ++ moves)
  le : n ≤ s.lastCooling

theorem Reckons.lapse (h : s.Reckons deltas) : s.Lapse s.lastCooling deltas [] := by
  refine ⟨?_, Nat.le_refl _⟩
  rw [if_pos rfl, List.append_nil]
  exact h

/-- What an iteration preserves. One that cools clears the counts. -/
theorem Lapse.advance (h : s.Lapse n deltas []) : s.advance.1.Lapse n deltas [] := by
  obtain ⟨⟨hcounts, hbehind⟩, hle⟩ := h
  have hnext := lastCooling_advance_le hbehind
  refine ⟨⟨?_, hnext.2⟩, Nat.le_trans hle hnext.1⟩
  rw [stats_advance, lastCooling_advance]
  cases s.advance.2.cooled with
  | true =>
    have hlater : s.iteration + 1 ≠ n := by omega
    rw [if_pos rfl, if_pos rfl, if_neg hlater]
    exact AcceptStats.counts_nil
  | false => exact hcounts

/-- A counted move is the first one of the call. -/
theorem Lapse.record (h : s.Lapse n deltas []) (delta : α) :
    (s.record delta).Lapse n deltas [delta] := by
  refine ⟨⟨?_, h.reckons.behind⟩, h.le⟩
  have hcounts := h.reckons.counts.record delta
  rw [List.append_nil] at hcounts
  exact hcounts

theorem Lapse.accept (h : s.Lapse n deltas []) (total reference delta : α)
    (random : Random.Stream) :
    (s.accept total reference delta random).2.1.Lapse n deltas
      (if (s.accept total reference delta random).1 then [delta] else []) := by
  unfold AnnealingSchedule.accept
  dsimp only
  split
  · exact h.record delta
  · exact h

/-- An iteration of a schedule does not fail. -/
theorem step_lapse [Model M V α] :
    Leads (fun s _ => s.Lapse n deltas []) (step : Act (AnnealingSchedule α) M α AnnealingTurn)
      (fun _ s _ => s.Lapse n deltas []) (fun _ _ => False) := by
  refine leads_of_at fun s sol hs => (step_leads s sol).mono_post fun turn s' _ h => ?_
  rw [h.1]
  exact hs.advance

end AnnealingSchedule

/-! ## Simulated annealing -/

namespace SimulatedAnnealing

variable [Model M V α] [MoveGenerator G M V α] {n : Nat} {deltas : List α}

theorem draw_lapse :
    Leads (fun a _ => a.schedule.Lapse n deltas [])
      (draw : Act (SimulatedAnnealing G α) M α (Drawn V α))
      (fun _ a _ => a.schedule.Lapse n deltas []) (fun a _ => a.schedule.Lapse n deltas []) := by
  unfold draw
  refine Leads.bind (Q := fun _ a _ => a.schedule.Lapse n deltas []) ?_ fun turn => ?_
  · exact leads_within fun a sol ha =>
      (AnnealingSchedule.step_lapse.at ha).mono_error fun _ _ h => h.elim
  refine leads_part_bind_any fun a => ?_
  split
  · refine Leads.bind (Q := fun _ a _ => a.schedule.Lapse n deltas []) (leads_change fun _ _ h => h)
      fun _ => leads_pure fun _ _ h => h
  dsimp only
  refine leads_when (leads_change fun _ _ h => h) fun _ => ?_
  refine Leads.bind (leads_within_of_kept fun _ _ h => h) fun drawn => ?_
  cases drawn with
  | yield => exact leads_pure fun _ _ h => h
  | empty => exact leads_pure fun _ _ h => h
  | candidate i c =>
    exact Leads.bind (Q := fun _ a _ => a.schedule.Lapse n deltas []) (leads_change fun _ _ h => h)
      fun _ => leads_pure fun _ _ h => h

omit [Model M V α] [MoveGenerator G M V α] in
/-- A decision counts the move if it accepts it, and does not fail. -/
theorem accept_lapse {notes : Notes α} (total reference delta : α)
    {E : SimulatedAnnealing G α → Solution M α → Prop} :
    Leads (fun a _ => a.heuristic.notes = notes ∧ a.schedule.Lapse n deltas [])
      (accept total reference delta : Act (SimulatedAnnealing G α) M α Bool)
      (fun accepted a _ => a.heuristic.notes = notes ∧
        a.schedule.Lapse n deltas (if accepted then [delta] else [])) E := by
  unfold accept
  refine leads_get_bind fun a w ha => ?_
  dsimp only
  refine Leads.bind
    (Q := fun _ a' _ => a'.heuristic.notes = notes ∧ a'.schedule.Lapse n deltas
      (if (a.schedule.accept total reference delta w.random).1 then [delta] else []))
    (leads_set fun _ _ _ => ⟨ha.1, ha.2.accept total reference delta w.random⟩) fun _ => ?_
  exact leads_pure fun _ _ h => h

omit [MoveGenerator G M V α] in
/-- What follows the draw of a move. The reward of an accepted move does not fail, so the move is
returned when it has been counted. -/
theorem weigh_lapse_eager {notes : Notes α} {index : Nat} (hn : notes.Sound)
    (hpicked : notes.Picked index notes.ended) (m : Move V α) :
    Leads (fun a _ => a.heuristic.notes = notes ∧ a.schedule.Lapse n deltas [])
      (weigh (.candidate index (.eager m)) :
        Act (SimulatedAnnealing G α) M α (Option (Option (Proposal V α))))
      (fun answer a _ => a.schedule.Lapse n deltas (Proposal.effects answer.join))
      (fun a _ => a.schedule.Lapse n deltas []) := by
  unfold weigh
  refine leads_solution_bind_any fun sol => leads_lift_bind (fun _ _ h => h.2) fun reference _ => ?_
  refine leads_solution_bind_any fun sol => leads_lift_bind (fun _ _ h => h.2) fun total _ => ?_
  refine Leads.bind (accept_lapse total reference m.delta) fun accepted => ?_
  have hoffer : Leads (fun a _ => a.schedule.Lapse n deltas [m.delta])
      (do
        let temperature := (← part).schedule.temperature
        onHeuristic (reportAccept "simulated_annealing" index m.delta fun _ => [
          ("temperature", .number temperature)])
        return some (some (.move m)) :
          Act (SimulatedAnnealing G α) M α (Option (Option (Proposal V α))))
      (fun answer a _ => a.schedule.Lapse n deltas (Proposal.effects answer.join))
      (fun a _ => a.schedule.Lapse n deltas []) := by
    refine leads_part_bind_any fun a => ?_
    refine Leads.bind (Q := fun _ a _ => a.schedule.Lapse n deltas [m.delta]) ?_ fun _ =>
      leads_pure fun _ _ h => h
    refine leads_within fun a sol ha => ?_
    exact (reportAccept_leads (P := At a.heuristic sol) _ _ _ _).mono_post fun _ _ _ _ => ha
  cases accepted with
  | true =>
    dsimp only
    rw [if_pos rfl, if_pos rfl]
    split
    · refine Leads.bind (Q := fun _ a _ => a.schedule.Lapse n deltas [m.delta]) ?_ fun _ => hoffer
      refine leads_within fun a sol ha => ?_
      exact ((rewardMove_leads hn hpicked m.delta).at ha.1).mono_post fun _ _ _ _ => ha.2
    · refine Leads.bind (Q := fun _ a _ => a.schedule.Lapse n deltas [m.delta]) ?_ fun _ => hoffer
      exact leads_within fun a sol ha => leads_change fun _ _ _ => ha.2
  | false =>
    rw [if_neg (by decide), if_neg (by decide)]
    refine Leads.bind (Q := fun _ a _ => a.schedule.Lapse n deltas []) ?_ fun _ =>
      leads_pure fun _ _ h => h
    exact leads_within fun a sol ha => leads_change fun _ _ _ => ha.2

/-- What an attempt preserves. Only a returned move is counted. -/
theorem attempt_lapse {notes : Notes α} (hn : notes.Sound) :
    Leads (fun a _ => a.heuristic.notes = notes ∧ a.schedule.Lapse n deltas [])
      (attempt : Act (SimulatedAnnealing G α) M α (Option (Option (Proposal V α))))
      (fun answer a _ => a.schedule.Lapse n deltas (Proposal.effects answer.join))
      (fun a _ => a.schedule.Lapse n deltas []) := by
  have hdraw : Leads (fun a _ => a.heuristic.notes = notes ∧ a.schedule.Lapse n deltas [])
      (draw : Act (SimulatedAnnealing G α) M α (Drawn V α))
      (fun d a _ => notes.Draws d a.heuristic.notes ∧ a.schedule.Lapse n deltas [])
      (fun a _ => a.schedule.Lapse n deltas []) :=
    (((draw_draws hn).mono_pre fun _ _ h => h.1).and (draw_lapse.mono_pre fun _ _ h => h.2)).mono
      (fun _ _ h => h) (fun _ _ _ h => h) fun _ _ h => h.2
  rw [attempt_eq]
  refine hdraw.bind fun d => ?_
  rcases d with _ | _ | ⟨index, m | c⟩
  · exact leads_pure fun _ _ h => h.2
  · exact leads_pure fun _ _ h => h.2
  · refine leads_of_at fun a sol ⟨hdraws, hlapse⟩ => ?_
    generalize hnotes : a.heuristic.notes = notes' at hdraws
    cases hdraws with
    | @candidate _ ended hpicked _ =>
      have hpicked' : (notes.pick ended).Picked index (notes.pick ended).ended :=
        ⟨hpicked.lt_count, hpicked.notMem, hpicked.length_lt⟩
      exact (weigh_lapse_eager (hn.pick ended) hpicked' m).at ⟨hnotes, hlapse⟩
  · refine leads_solution_bind_any fun sol => leads_lift_bind (fun _ _ h => h.2) fun _ _ => ?_
    refine Leads.bind (Q := fun _ a _ => a.schedule.Lapse n deltas []) ?_ fun seed => ?_
    · exact leads_onWorld fun a => Attempt.ensures_modifyGet fun _ h => h.2
    · exact leads_part_bind_any fun a => leads_pure fun _ _ h => h

/-- What a call preserves. -/
theorem select_lapse {k : Nat} {config : SequenceConfig} :
    Leads (fun a _ => a.heuristic.notes.Fit k config ∧ a.schedule.Lapse n deltas [])
      (select : Act (SimulatedAnnealing G α) M α (Option (Proposal V α)))
      (fun p? a _ => a.schedule.Lapse n deltas (Proposal.effects p?))
      (fun a _ => a.schedule.Lapse n deltas []) := by
  have hattempt : Leads (fun a _ => a.heuristic.notes.Fit k config ∧ a.schedule.Lapse n deltas [])
      (attempt : Act (SimulatedAnnealing G α) M α (Option (Option (Proposal V α))))
      (fun answer a _ => a.heuristic.notes.Fit k config ∧
        a.schedule.Lapse n deltas (Proposal.effects answer.join))
      (fun a _ => a.heuristic.notes.Fit k config ∧ a.schedule.Lapse n deltas []) := by
    refine leads_of_at fun a sol ha => ?_
    exact ((takesTurns.leads_fit k config).at ha.1).and ((attempt_lapse ha.1.sound).at ⟨rfl, ha.2⟩)
  have hcall : Attempt.Ensures
      (fun s => s.1.heuristic.notes.Fit k config ∧ s.1.schedule.Lapse n deltas [])
      (select : Act (SimulatedAnnealing G α) M α (Option (Proposal V α)))
      (fun p? s => s.1.heuristic.notes.Fit k config ∧
        s.1.schedule.Lapse n deltas (Proposal.effects p?))
      (fun s => s.1.heuristic.notes.Fit k config ∧ s.1.schedule.Lapse n deltas []) := by
    unfold select
    exact ensures_attempts_bind
      (Q := fun p? (a : SimulatedAnnealing G α) => a.heuristic.notes.Fit k config ∧
        a.schedule.Lapse n deltas (Proposal.effects p?))
      (E := fun a : SimulatedAnnealing G α => a.heuristic.notes.Fit k config ∧ a.schedule.Lapse n deltas [])
      (Attempt.ensures_firstOf hattempt (fun _ => Iff.rfl) maxAttempts) (fun _ => rfl) rfl
  exact hcall.mono (fun _ h => h) (fun _ _ h => h.2) fun _ h => h.2

/-- What preparing for a search makes of the schedule. A preparation that fails does not come to
it. -/
theorem init_reckons :
    Leads (fun a _ => a.schedule.Reckons deltas) (init : Act (SimulatedAnnealing G α) M α Unit)
      (fun _ a _ => a.schedule.Reckons []) (fun a _ => a.schedule.Reckons deltas) := by
  unfold init
  refine leads_solution_bind_any fun sol => ?_
  refine Leads.bind (leads_within_of_kept fun _ _ h => h) fun _ => ?_
  refine leads_lift_bind (fun _ _ h => h) fun size _ => ?_
  refine Leads.bind (Q := fun _ a _ => a.schedule.Reckons []) ?_ fun _ =>
    leads_change fun _ _ h => h
  refine leads_within fun a sol ha => ?_
  refine (AnnealingSchedule.start_leads size).mono_post fun _ s _ ⟨s₀, hs⟩ => ?_
  rw [hs]
  exact AnnealingSchedule.reckons_init s₀ size

end SimulatedAnnealing

/-! ## Group acceptance -/

/-- The effect of a move that a decision counts. -/
def Group.Decision.effects (delta : α) : Group.Decision → List α
  | accepted => [delta]
  | refused => []
  | dropped => []

namespace Group

/-- Group acceptance in a call, before its vote or in it, with the moves of the call so far. -/
structure Lapse (voting : Bool) (n : Nat) (deltas moves : List α) (g : Group G α) : Prop where
  constructed_eq : g.constructed = voting
  annealing : ∃ s, g.annealing = some s ∧ s.Lapse n deltas moves

variable [Model M V α] {n : Nat} {deltas moves : List α} {voting : Bool}

theorem lapse_onHeuristic {β : Type} (x : Act (Heuristic G α) M α β) :
    Leads (fun g _ => g.Lapse voting n deltas moves) (onHeuristic x)
      (fun _ g _ => g.Lapse voting n deltas moves) (fun g _ => g.Lapse voting n deltas moves) :=
  leads_within_of_kept fun _ _ h => ⟨h.constructed_eq, h.annealing⟩

theorem advanceDeluge_lapse (reference : α) {E : Group G α → Solution M α → Prop} :
    Leads (fun g _ => g.Lapse voting n deltas moves)
      (advanceDeluge reference : Act (Group G α) M α Unit)
      (fun _ g _ => g.Lapse voting n deltas moves) E := by
  refine leads_of_at fun g sol hg => ?_
  refine (advanceDeluge_leads reference g sol).mono (fun _ _ h => h) (fun _ g' _ hg' => ?_)
    fun _ _ h => h.elim
  rw [hg'.1]
  exact ⟨hg.constructed_eq, hg.annealing⟩

/-- A vote counts the move if it is won and the iteration does not go back to the best state. The
count comes after the iteration, so a cooling does not clear it. -/
theorem decideByVote_lapse (s : AnnealingSchedule α) (delta total reference : α) :
    Leads (fun g _ => g.constructed = voting ∧ s.Lapse n deltas [] ∧ g.annealing = some s)
      (decideByVote s delta total reference : Act (Group G α) M α Decision)
      (fun decision g _ => g.Lapse voting n deltas (decision.effects delta))
      (fun _ _ => False) := by
  unfold decideByVote
  refine leads_get_bind fun g w hg => ?_
  obtain ⟨judged, random⟩ := s.judge total reference delta w.random
  dsimp only
  refine Leads.bind (Q := fun _ g _ => g.constructed = voting ∧ s.Lapse n deltas [] ∧
    g.annealing = some s) (leads_set fun _ _ _ => hg) fun _ => ?_
  split
  · exact leads_pure fun _ _ h => ⟨h.1, s, h.2.2, h.2.1⟩
  refine Leads.bind (Q := fun _ g _ => g.Lapse voting n deltas []) ?_ fun turn => ?_
  · refine leads_within fun g sol hg => ?_
    exact (AnnealingSchedule.step_lapse.at hg.2.1).mono_post fun _ s' _ hs' =>
      ⟨hg.1, s', rfl, hs'⟩
  refine Leads.bind (advanceDeluge_lapse reference) fun _ => ?_
  split
  · exact leads_pure fun _ _ h => h
  · refine Leads.bind (Q := fun _ g _ => g.Lapse voting n deltas [delta])
      (leads_change fun g _ hg => ?_) fun _ => leads_pure fun _ _ h => h
    obtain ⟨s', hs', hlapse⟩ := hg.annealing
    exact ⟨hg.constructed_eq, s'.record delta, by rw [hs']; rfl, hlapse.record delta⟩

/-- With a temperature there is always a vote. -/
theorem decide_lapse (index : Nat) (delta reference : α) :
    Leads (fun g _ => g.Lapse voting n deltas [])
      (decide index delta reference : Act (Group G α) M α Decision)
      (fun decision g _ => g.Lapse voting n deltas (decision.effects delta))
      (fun g _ => g.Lapse voting n deltas []) := by
  unfold decide
  refine leads_solution_bind_any fun sol => leads_lift_bind (fun _ _ h => h) fun total _ => ?_
  refine leads_part_bind fun g sol hg => ?_
  obtain ⟨s, hs, hlapse⟩ := hg.annealing
  rw [hs]
  exact ((decideByVote_lapse s delta total reference).at ⟨hg.constructed_eq, hlapse, hs⟩).mono_error
    fun _ _ h => h.elim

/-- A lazy change is offered with a copy of the temperature. -/
theorem criterion_lapse (reference : α) {E : Group G α → Solution M α → Prop} :
    Leads (fun g _ => g.Lapse voting n deltas moves)
      (criterion reference : Act (Group G α) M α (Criterion α))
      (fun _ g _ => g.Lapse voting n deltas moves) E := by
  unfold criterion
  refine leads_get_bind fun g w hg => ?_
  exact Leads.bind (Q := fun _ g _ => g.Lapse voting n deltas moves) (leads_set fun _ _ _ => hg)
    fun _ => leads_pure fun _ _ h => h

variable [MoveGenerator G M V α]

/-- What an attempt preserves. Only a returned move is counted. -/
theorem attempt_lapse (reference : α) :
    Leads (fun g _ => g.Lapse voting n deltas [])
      (attempt reference : Act (Group G α) M α (Option (Proposal V α)))
      (fun p? g _ => g.Lapse voting n deltas (Proposal.effects p?))
      (fun g _ => g.Lapse voting n deltas []) := by
  unfold attempt
  refine (lapse_onHeuristic drawCandidate).bind fun d => ?_
  rcases d with _ | _ | ⟨index, m | c⟩
  · exact leads_pure fun _ _ h => h
  · exact leads_pure fun _ _ h => h
  · refine (decide_lapse index m.delta reference).bind fun decision => ?_
    cases decision with
    | dropped => exact leads_pure fun _ _ h => h
    | refused => exact (lapse_onHeuristic _).bind fun _ => leads_pure fun _ _ h => h
    | accepted =>
      refine Leads.bind (Q := fun _ g _ => g.Lapse voting n deltas [m.delta]) ?_ fun _ =>
        leads_pure fun _ _ h => h
      refine leads_within fun g sol hg => ?_
      exact (reportAccept_leads (P := At g.heuristic sol) _ _ _ _).mono_post fun _ _ _ _ =>
        ⟨hg.constructed_eq, hg.annealing⟩
  · exact (criterion_lapse reference).bind fun rule => leads_pure fun _ _ h => h

omit [MoveGenerator G M V α] in
/-- A call is in its vote from then on, or construction has made an offer. -/
theorem opening_lapse :
    Leads (fun g _ => g.Lapse voting n deltas [])
      (opening : Act (Group G α) M α (Proposal V α ⊕ α))
      (fun answer g _ => g.Lapse answer.isRight n deltas [])
      (fun g _ => ∃ voting, g.Lapse voting n deltas []) := by
  have hvote : Leads (fun g _ => g.Lapse true n deltas [])
      (openVote >>= fun reference => pure (.inr reference) :
        Act (Group G α) M α (Proposal V α ⊕ α))
      (fun answer g _ => g.Lapse answer.isRight n deltas [])
      (fun g _ => ∃ voting, g.Lapse voting n deltas []) := by
    unfold openVote
    refine Leads.bind (Q := fun _ g _ => g.Lapse true n deltas []) ?_ fun reference =>
      leads_pure fun _ _ h => h
    refine leads_solution_bind_any fun sol => ?_
    refine leads_lift_bind (fun _ _ h => ⟨true, h⟩) fun reference _ => ?_
    refine leads_part_bind_any fun g => ?_
    exact leads_when (advanceDeluge_lapse reference) fun _ => leads_pure fun _ _ h => h
  unfold opening
  refine leads_part_bind fun g sol hg => ?_
  split
  case isTrue hconstructed =>
    exact hvote.at ⟨hconstructed, hg.annealing⟩
  case isFalse hconstructed =>
    have hfalse : g.Lapse false n deltas [] := ⟨by simpa using hconstructed, hg.annealing⟩
    refine Leads.bind (Q := fun _ g _ => g.Lapse false n deltas []) ?_ fun p? => ?_
    · refine leads_within fun g' _ hat => Attempt.ensures_of (fun _ _ s' _ _ => ?_)
        fun _ _ s' _ _ => ?_
      · rw [hat.1]
        exact ⟨hfalse.constructed_eq, hfalse.annealing⟩
      · rw [hat.1]
        exact ⟨false, hfalse.constructed_eq, hfalse.annealing⟩
    cases p? with
    | some p => exact leads_pure fun _ _ h => h
    | none =>
      refine Leads.bind (Q := fun _ g _ => g.Lapse true n deltas [])
        (leads_change fun _ _ h => ⟨rfl, h.annealing⟩) fun _ => ?_
      exact leads_solution_bind_any fun sol => leads_report_bind fun _ => hvote

/-- What a call preserves. An offer of construction is not counted. -/
theorem select_lapse :
    Leads (fun g _ => g.Lapse voting n deltas [])
      (select : Act (Group G α) M α (Option (Proposal V α)))
      (fun p? g _ => g.Lapse g.constructed n deltas
        (if g.constructed then Proposal.effects p? else []))
      (fun g _ => ∃ voting, g.Lapse voting n deltas []) := by
  rw [select_eq]
  refine opening_lapse.bind fun answer => ?_
  cases answer with
  | inl p =>
    refine leads_pure fun g _ hg => ?_
    rw [hg.constructed_eq]
    exact hg
  | inr reference =>
    have hloop : Leads (fun g _ => g.Lapse true n deltas [])
        (Attempt.firstOf (attempt reference) maxAttempts :
          Act (Group G α) M α (Option (Proposal V α)))
        (fun p? g _ => g.Lapse true n deltas (Proposal.effects p?))
        (fun g _ => g.Lapse true n deltas []) :=
      Attempt.ensures_firstOf (attempt_lapse reference) (fun _ => Iff.rfl) maxAttempts
    refine hloop.mono (fun _ _ h => h) (fun p? g _ hg => ?_) fun _ _ h => ⟨true, h⟩
    rw [hg.constructed_eq]
    exact hg

/-- What preparing for a search makes of the temperature. A preparation that fails does not come to
it. -/
theorem init_reckons :
    Leads (fun g _ => ∃ s, g.annealing = some s ∧ s.Reckons deltas)
      (init : Act (Group G α) M α Unit)
      (fun _ g _ => ∃ s, g.annealing = some s ∧ s.Reckons [])
      (fun g _ => ∃ s, g.annealing = some s ∧ s.Reckons deltas) := by
  unfold init
  refine Leads.bind (leads_within_of_kept fun _ _ h => h) fun _ => ?_
  refine leads_solution_bind_any fun sol => ?_
  refine Leads.bind (leads_within_of_kept fun _ _ h => h) fun _ => ?_
  refine Leads.bind (Q := fun _ g _ => ∃ s, g.annealing = some s ∧ s.Reckons deltas)
    (leads_change fun _ _ h => h) fun _ => ?_
  refine leads_part_bind fun g sol hg => ?_
  obtain ⟨s, hs, hreckons⟩ := hg
  rw [hs]
  refine leads_lift_bind (fun _ _ hat => hat.1 ▸ ⟨s, hs, hreckons⟩) fun size _ => ?_
  refine leads_within fun g' _ _ => ?_
  refine (AnnealingSchedule.start_leads size).mono_post fun _ s' _ ⟨s₀, hs'⟩ => ?_
  exact ⟨s', rfl, hs' ▸ AnnealingSchedule.reckons_init s₀ size⟩

end Group

/-! ## Both strategies -/

namespace BasicStrategy

omit [Scalar α] in
/-- The temperature of a strategy, if it has one. -/
def annealing? : BasicStrategy G α → Option (AnnealingSchedule α)
  | simulatedAnnealing s => some s.schedule
  | group g => g.annealing
  | hillClimbing _ => none
  | greatDeluge _ => none
  | construction _ => none

omit [Scalar α] in
/-- A strategy in its acceptance phase. Only group acceptance has another one before it. -/
def accepting : BasicStrategy G α → Bool
  | group g => g.constructed
  | construction _ => false
  | _ => true

variable [Model M V α] [MoveGenerator G M V α]

/-- The effect of the move that the acceptance phase returns in a call, if it returns one. -/
def accepted (t : BasicStrategy G α) (w : World M α) : List α :=
  match (Strategy.select : Act (BasicStrategy G α) M α (Option (Proposal V α))) (t, w) with
  | .ok p? s => if s.1.accepting then Proposal.effects p? else []
  | .error _ _ => []

/-- Whether the temperature cools in a call: its last cooling is another one then. -/
def cools (t : BasicStrategy G α) (w : World M α) : Bool :=
  ((Strategy.select : Act (BasicStrategy G α) M α (Option (Proposal V α))).after
    (t, w)).1.annealing?.map (·.lastCooling) != t.annealing?.map (·.lastCooling)

variable (M) in
/-- A strategy over `k` selectors in a search, with the effects of the moves that its acceptance
phase has returned since the later of the start and the last cooling. A move that is returned by the
call in which the temperature cools belongs to the new period. Calls may fail, and somebody else may
learn into the tables. -/
inductive Periods (k : Nat) (t : BasicStrategy G α) : List α → BasicStrategy G α → Prop
  | new : Periods k t [] t
  | init {deltas : List α} {t' : BasicStrategy G α} (run : Periods k t deltas t')
    (w : World M α) :
    Periods k t
      (if ((Strategy.init : Act (BasicStrategy G α) M α Unit).answer? (t', w)).isSome then []
        else deltas)
      ((Strategy.init : Act (BasicStrategy G α) M α Unit).after (t', w)).1
  | select {deltas : List α} {t' : BasicStrategy G α} (run : Periods k t deltas t')
    (w : World M α) :
    Periods k t ((if t'.cools w then [] else deltas) ++ t'.accepted w)
      ((Strategy.select : Act (BasicStrategy G α) M α (Option (Proposal V α))).after (t', w)).1
  | bestSaved {deltas : List α} {t' : BasicStrategy G α} (run : Periods k t deltas t') :
    Periods k t deltas (Strategy.bestSaved M t')
  | resetScores {deltas : List α} {t' : BasicStrategy G α} (run : Periods k t deltas t') :
    Periods k t deltas (Strategy.resetScores M t')
  | shared {deltas : List α} {t' : BasicStrategy G α} (run : Periods k t deltas t')
    {scores : Scores α} (hscores : scores.Covers k) : Periods k t deltas (t'.withTables scores)

/-- There is a temperature, and its statistics are those of the given moves. -/
def Reckons (deltas : List α) (t : BasicStrategy G α) : Prop :=
  ∃ s, t.annealing? = some s ∧ s.Reckons deltas

variable {k : Nat} {config : SequenceConfig} {deltas : List α} {t t' : BasicStrategy G α}

/-- What preparing for a search makes of the statistics. -/
theorem Reckons.init (ht : t.Reckons deltas) (w : World M α) :
    Reckons
      (if ((Strategy.init : Act (BasicStrategy G α) M α Unit).answer? (t, w)).isSome then []
        else deltas)
      ((Strategy.init : Act (BasicStrategy G α) M α Unit).after (t, w)).1 := by
  have hinit : Leads (At t w.solution) (Strategy.init : Act (BasicStrategy G α) M α Unit)
      (fun _ t' _ => t'.Reckons []) (fun t' _ => t'.Reckons deltas) := by
    show Leads _ BasicStrategy.init _ _
    unfold BasicStrategy.init
    refine leads_part_bind_at ?_
    obtain ⟨s, hs, hreckons⟩ := ht
    cases t with
    | simulatedAnnealing a =>
      cases hs
      exact leads_inside ((SimulatedAnnealing.init_reckons.mono (fun _ _ h => h)
        (fun _ a _ h => ⟨a.schedule, rfl, h⟩) fun a _ h => ⟨a.schedule, rfl, h⟩).at hreckons)
    | group g => exact leads_inside (Group.init_reckons.at ⟨s, hs, hreckons⟩)
    | hillClimbing _ | greatDeluge _ | construction _ => cases hs
  unfold Attempt.answer? Attempt.after
  cases hrun : (Strategy.init : Act (BasicStrategy G α) M α Unit) (t, w) with
  | ok u s => exact hinit.of_ok ⟨rfl, rfl⟩ hrun
  | error e s => exact hinit.of_error ⟨rfl, rfl⟩ hrun

/-- A call of a strategy whose temperature has cooled last in iteration `n`. -/
def Lapse (n : Nat) (deltas moves : List α) (t : BasicStrategy G α) : Prop :=
  ∃ s, t.annealing? = some s ∧ s.Lapse n deltas moves

theorem select_lapse {s : AnnealingSchedule α} (hfit : t.Fit k config) (hs : t.annealing? = some s)
    (hreckons : s.Reckons deltas) (sol : Solution M α) :
    Leads (At t sol) (Strategy.select : Act (BasicStrategy G α) M α (Option (Proposal V α)))
      (fun p? t' _ => t'.Lapse s.lastCooling deltas
        (if t'.accepting then Proposal.effects p? else []))
      (fun t' _ => t'.Lapse s.lastCooling deltas []) := by
  show Leads _ BasicStrategy.select _ _
  unfold BasicStrategy.select
  refine leads_part_bind_at ?_
  obtain ⟨h, hh, hnotes⟩ := hfit
  cases t with
  | simulatedAnnealing a =>
    cases hh
    cases hs
    exact leads_inside ((SimulatedAnnealing.select_lapse.mono (fun _ _ h => h)
      (fun _ a _ h => ⟨a.schedule, rfl, h⟩) fun a _ h => ⟨a.schedule, rfl, h⟩).at
        ⟨hnotes, hreckons.lapse⟩)
  | group g =>
    refine leads_inside ((Group.select_lapse.mono (fun _ _ h => h)
      (fun _ _ _ h => h.annealing) fun _ _ ⟨_, h⟩ => h.annealing).at
        ⟨rfl, s, hs, hreckons.lapse⟩)
  | hillClimbing _ | greatDeluge _ | construction _ => cases hs

/-- What a call makes of the statistics. -/
theorem Reckons.select (hfit : t.Fit k config) (ht : t.Reckons deltas) (w : World M α) :
    Reckons ((if t.cools w then [] else deltas) ++ t.accepted w)
      ((Strategy.select : Act (BasicStrategy G α) M α (Option (Proposal V α))).after
        (t, w)).1 := by
  obtain ⟨s, hs, hreckons⟩ := ht
  have hselect := select_lapse hfit hs hreckons w.solution
  have hcools {s' : AnnealingSchedule α} {t' : BasicStrategy G α} (hs' : t'.annealing? = some s')
      (hafter : ((Strategy.select : Act (BasicStrategy G α) M α (Option (Proposal V α))).after
        (t, w)).1 = t') :
      (if t.cools w then [] else deltas) =
        if s'.lastCooling = s.lastCooling then deltas else [] := by
    unfold cools
    rw [hafter, hs', hs]
    by_cases hsame : s'.lastCooling = s.lastCooling <;> simp [hsame]
  cases hrun : (Strategy.select : Act (BasicStrategy G α) M α (Option (Proposal V α))) (t, w) with
  | ok p? u =>
    obtain ⟨s', hs', hlapse⟩ := hselect.of_ok ⟨rfl, rfl⟩ hrun
    have hafter := congrArg Prod.fst (Attempt.after_of_ok hrun)
    have haccepted : t.accepted w = if u.1.accepting then Proposal.effects p? else [] := by
      unfold accepted
      rw [hrun]
    rw [hcools hs' hafter, haccepted, hafter]
    exact ⟨s', hs', hlapse.reckons⟩
  | error e u =>
    obtain ⟨s', hs', hlapse⟩ := hselect.of_error ⟨rfl, rfl⟩ hrun
    have hafter := congrArg Prod.fst (Attempt.after_of_error hrun)
    have haccepted : t.accepted w = [] := by
      unfold accepted
      rw [hrun]
    rw [hcools hs' hafter, haccepted, hafter]
    exact ⟨s', hs', hlapse.reckons⟩

/-- What has nothing to do with the statistics. -/
theorem Reckons.bestSaved (ht : t.Reckons deltas) : Reckons deltas (Strategy.bestSaved M t) := by
  obtain ⟨s, hs, hreckons⟩ := ht
  have hsaved : s.bestSaved.Reckons deltas := ⟨hreckons.counts, hreckons.behind⟩
  cases t with
  | simulatedAnnealing a =>
    cases hs
    exact ⟨_, rfl, hsaved⟩
  | group g => exact ⟨_, congrArg (Option.map AnnealingSchedule.bestSaved) hs, hsaved⟩
  | hillClimbing _ | greatDeluge _ | construction _ => cases hs

theorem annealing?_resetScores (t : BasicStrategy G α) :
    (Strategy.resetScores M t).annealing? = t.annealing? := by
  cases t <;> rfl

omit [Scalar α] [Model M V α] [MoveGenerator G M V α] in
theorem annealing?_withTables (t : BasicStrategy G α) (scores : Scores α) :
    (t.withTables scores).annealing? = t.annealing? := by
  cases t <;> rfl

/-- What a search preserves. -/
theorem reckons_of_periods (run : Periods M k t deltas t') (hfit : t.Fit k config)
    (ht : t.Reckons []) : t'.Fit k config ∧ t'.Reckons deltas := by
  induction run with
  | new => exact ⟨hfit, ht⟩
  | init _ w ih => exact ⟨fit_init w ih.1, ih.2.init w⟩
  | select _ w ih => exact ⟨fit_select w ih.1, ih.2.select ih.1 w⟩
  | bestSaved _ ih => exact ⟨fit_bestSaved ih.1, ih.2.bestSaved⟩
  | resetScores _ ih =>
    obtain ⟨s, hs, hreckons⟩ := ih.2
    exact ⟨fit_resetScores ih.1, s, (annealing?_resetScores _).trans hs, hreckons⟩
  | shared _ hscores ih =>
    obtain ⟨s, hs, hreckons⟩ := ih.2
    exact ⟨fit_withTables ih.1 hscores, s, (annealing?_withTables _ _).trans hs, hreckons⟩

/-- In every state of a search by simulated annealing or by group acceptance with a temperature, the
statistics count the moves of the cooling period by the signs of their effects. An iteration cools
exactly if it changes the last cooling, which never goes back. -/
theorem counts_of_periods {selectors : List (Selector G α)} {scores : Scores α}
    {sequence : Sequence G α} {annealing : AnnealingConfig α} {nextOnReheat : Bool}
    (hseq : Sequence.withScores selectors config scores = .ok sequence)
    (hscores : scores.Covers selectors.length) (hnew : t.New sequence)
    (hannealing : t.annealing? = some (.of annealing nextOnReheat))
    (run : Periods M selectors.length t deltas t') :
    ∃ s, t'.annealing? = some s ∧ s.stats.Counts deltas ∧
      (s.advance.2.cooled = true ↔ s.advance.1.lastCooling ≠ s.lastCooling) ∧
      s.lastCooling ≤ s.advance.1.lastCooling := by
  have hstart : t.Reckons [] := ⟨_, hannealing, AnnealingSchedule.reckons_of annealing nextOnReheat⟩
  obtain ⟨-, s, hs, hreckons⟩ := reckons_of_periods run (fit_new hseq hscores hnew) hstart
  exact ⟨s, hs, hreckons.counts, AnnealingSchedule.cooled_advance_iff hreckons.behind,
    (AnnealingSchedule.lastCooling_advance_le hreckons.behind).1⟩

end BasicStrategy

/-- One variable with two options of the given costs, which has the first one. -/
def World.twoOptions (costs : ℚ × ℚ) (seed : UInt64) : World (Penalty ℚ) ℚ :=
  .ofSolution (.ofModel ⟨[[costs.1, costs.2]], [some 0], none, 0⟩) (.standard seed) none

namespace Group

/-- A temperature that cools in every other iteration and goes back to the best state in every
third one. -/
def clerkConfig : AnnealingConfig ℚ :=
  { (.standard : AnnealingConfig ℚ) with tempLengthCoef := 0, restoreBestLengthCoef := some 2 }

def clerkSequence : Sequence (Generator Empty ℚ) ℚ :=
  ⟨[.of "change" (.basic (.change false)) 0], .fresh 1, {}, false⟩

/-- Group acceptance with this temperature. -/
def clerk : Group (Generator Empty ℚ) ℚ :=
  .of (.of .standard) clerkSequence (.of .standard false false) (some (.of clerkConfig false))

/-- The clerk in a search, after calls in worlds with the given costs, the last one first. -/
def served : List (ℚ × ℚ) → BasicStrategy (Generator Empty ℚ) ℚ
  | [] => ((Strategy.init : Act _ (Penalty ℚ) ℚ Unit).after (.group clerk, .twoOptions (4, 4) 0)).1
  | costs :: rest =>
    ((Strategy.select : Act _ (Penalty ℚ) ℚ (Option (Proposal Nat ℚ))).after
      (served rest, .twoOptions costs 0)).1

/-- The effects of the moves of the cooling period. -/
def servedMoves : List (ℚ × ℚ) → List ℚ
  | [] => []
  | costs :: rest =>
    (if (served rest).cools (.twoOptions costs 0 : World (Penalty ℚ) ℚ) then [] else
      servedMoves rest) ++ (served rest).accepted (.twoOptions costs 0 : World (Penalty ℚ) ℚ)

theorem periods_served (calls : List (ℚ × ℚ)) :
    BasicStrategy.Periods (Penalty ℚ) 1 (.group clerk) (servedMoves calls) (served calls) := by
  induction calls with
  | nil =>
    have run := BasicStrategy.Periods.new (M := Penalty ℚ) (k := 1) (t := .group clerk)
    have hinit := run.init (.twoOptions (4, 4) 0)
    rw [ite_self] at hinit
    exact hinit
  | cons costs rest ih => exact ih.select (.twoOptions costs 0)

/-- The second iteration cools. The third one goes back to the best state, so its move is dropped
and another one is drawn in the same call; the iteration of this one cools as well. -/
theorem counts_of_periods_clerk :
    ∃ s, (served [(4, 4), (4, 3), (4, 4), (4, 3)]).annealing? = some s ∧
      s.stats = ⟨1, 1, 0⟩ ∧ s.iteration = 5 ∧ s.lastRestore = 3 ∧ s.lastCooling = 4 := by
  have hmoves : servedMoves [(4, 4), (4, 3), (4, 4), (4, 3)] = [-1, 0] := by decide +kernel
  have hcounters : (served [(4, 4), (4, 3), (4, 4), (4, 3)]).annealing?.map
      (fun s => (s.iteration, s.lastRestore, s.lastCooling)) = some (5, 3, 4) := by decide +kernel
  have hsequence : Sequence.withScores clerkSequence.selectors {} (.fresh 1) = .ok clerkSequence :=
    rfl
  obtain ⟨s, hs, hcounts, -⟩ := BasicStrategy.counts_of_periods hsequence (Scores.covers_fresh 1)
    (.group _ _ _) rfl (periods_served [(4, 4), (4, 3), (4, 4), (4, 3)])
  rw [hmoves, AcceptStats.counts_iff] at hcounts
  obtain ⟨himproving, hworsening, hzero⟩ := hcounts
  have hstats : s.stats = ⟨1, 1, 0⟩ := by
    calc s.stats = ⟨s.stats.improving, s.stats.zero, s.stats.worsening⟩ := rfl
      _ = ⟨1, 1, 0⟩ := by rw [himproving, hworsening, hzero]; decide +kernel
  rw [hs] at hcounters
  simp only [Option.map_some, Option.some.injEq, Prod.mk.injEq] at hcounters
  exact ⟨s, hs, hstats, hcounters⟩

end Group

end LocalSearch
