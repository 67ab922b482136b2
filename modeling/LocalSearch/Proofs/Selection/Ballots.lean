import LocalSearch.Model.Penalty
import LocalSearch.Proofs.Schedule.Annealing
import LocalSearch.Proofs.Selection.Group
import LocalSearch.Proofs.Selection.Turn
/-!
# The schedules of group acceptance

Group acceptance decides in two places. A move with a known effect is voted on when it is drawn, and
if it wins, both schedules advance. A lazy change is handed out with a rule that votes when the
change is made; then the strategy is no longer asked, and its schedules stay as they are.

* `Attempt.tally`: what is counted over the attempts of a loop.
* `Group.wins`, `Group.won`: the moves that win the vote in an attempt and in a call.
* `Group.applied`: the lazy changes of a call that stay.
* `Group.Counts`: both schedules have made a number of iterations.
* `Group.attempt_counts`, `Group.select_counts`: what an attempt and a call add to it.
* `Group.Runs`: a search by group acceptance, with its accepted candidates.
* `Group.iterations_of_runs`: the iterations are the moves that won.
-/

namespace LocalSearch

open Act

/-! ## Counting over attempts -/

namespace Attempt

variable {σ β : Type}

/-- The sum of what is seen in the states in which a loop of attempts starts an attempt. -/
def tally (look : σ → Nat) (attempt : Attempt σ (Option β)) : Nat → σ → Nat
  | 0, _ => 0
  | n + 1, s =>
    look s + match attempt s with
      | .ok none s' => tally look attempt n s'
      | _ => 0

/-- If every attempt adds what is seen when it starts, a loop adds the tally. -/
theorem ensures_firstOf_tally {look : σ → Nat} {attempt : Attempt σ (Option β)}
    {P : Nat → σ → Prop} {E : σ → Prop}
    (h : ∀ k s, P k s → Ensures (· = s) attempt (fun _ s' => P (k + look s) s') E) (n k : Nat)
    (s : σ) (hs : P k s) :
    Ensures (· = s) (firstOf attempt n) (fun _ s' => P (k + tally look attempt n s) s') E := by
  induction n generalizing k s with
  | zero => exact ensures_pure fun s' hs' => hs' ▸ hs
  | succ n ih =>
    unfold firstOf
    apply ensures_bind_at
    · intro a? s' hrun
      have hnext : P (k + look s) s' := (h k s hs).of_ok rfl hrun
      cases a? with
      | none =>
        have htally : tally look attempt (n + 1) s = look s + tally look attempt n s' := by
          simp only [tally, hrun]
        rw [htally, ← Nat.add_assoc]
        exact ih (k + look s) s' hnext
      | some a =>
        have htally : tally look attempt (n + 1) s = look s := by
          simp only [tally, hrun, Nat.add_zero]
        rw [htally]
        exact ensures_pure fun t ht => ht ▸ hnext
    · intro e s' hrun
      exact (h k s hs).of_error rfl hrun

end Attempt

/-! ## One iteration of the schedules -/

section

variable {M V α : Type} [Scalar α]

theorem DelugeSchedule.iteration_advance {s : DelugeSchedule α} (hbound : s.bound ≠ none)
    (reference : α) : (s.advance reference).1.iteration = s.iteration + 1 := by
  unfold advance
  cases hb : s.bound with
  | none => exact absurd hb hbound
  | some bound =>
    dsimp only
    split <;> split <;> rfl

theorem DelugeSchedule.bound_advance (s : DelugeSchedule α) (reference : α) :
    (s.advance reference).1.bound ≠ none := by
  unfold advance
  cases s.bound with
  | none => simp
  | some bound =>
    dsimp only
    split <;> split <;> simp

/-- The first iteration sets the bound and is not counted. -/
theorem DelugeSchedule.iteration_advance_unset {s : DelugeSchedule α} (hbound : s.bound = none)
    (reference : α) : (s.advance reference).1.iteration = 0 := by
  unfold advance
  rw [hbound]

theorem DelugeSchedule.nextOnReheat_advance (s : DelugeSchedule α) (reference : α) :
    (s.advance reference).1.nextOnReheat = s.nextOnReheat := by
  unfold advance
  cases s.bound with
  | none => rfl
  | some bound =>
    dsimp only
    split <;> split <;> rfl

/-- A reheat counts one in a word. -/
theorem DelugeSchedule.idle_advance (s : DelugeSchedule α) (reference : α) :
    (s.advance reference).1.idle =
      if (s.advance reference).2 then (s.idle + 1) % UInt32.size else s.idle := by
  unfold advance
  cases s.bound with
  | none => rfl
  | some bound =>
    dsimp only
    split <;> split <;> rfl

/-- A reheat can be told from the count of reheats, unless that wraps around. -/
theorem DelugeSchedule.idle_lt_advance_iff {s : DelugeSchedule α}
    (hword : s.idle + 1 < UInt32.size) (reference : α) :
    s.idle < (s.advance reference).1.idle ↔ (s.advance reference).2 = true := by
  rw [s.idle_advance, Nat.mod_eq_of_lt hword]
  cases (s.advance reference).2 <;> simp

/-- Only a reheat raises the count. -/
theorem DelugeSchedule.raised_of_idle_lt {s : DelugeSchedule α} {reference : α}
    (h : s.idle < (s.advance reference).1.idle) : (s.advance reference).2 = true := by
  by_contra hraised
  rw [s.idle_advance, if_neg hraised] at h
  exact absurd h (Nat.lt_irrefl _)

theorem DelugeSchedule.step_leads (reference : α) (s : DelugeSchedule α) (sol : Solution M α) :
    Leads (At s sol) (step reference : Act (DelugeSchedule α) M α Bool)
      (fun raised s' sol' => raised = (s.advance reference).2 ∧
        At (s.advance reference).1 sol s' sol')
      (fun _ _ => False) := by
  unfold step
  refine leads_part_bind_at ?_
  dsimp only
  refine Leads.bind (Q := fun _ => At (s.advance reference).1 sol)
    (leads_change fun _ _ h => ⟨rfl, h.2⟩) fun _ => ?_
  exact leads_report_when fun _ => leads_pure fun _ _ h => ⟨rfl, h⟩

omit [Scalar α] in
theorem AnnealingSchedule.reportPeriod_leads {P : AnnealingSchedule α → Solution M α → Prop}
    {E : AnnealingSchedule α → Solution M α → Prop} (name : String) (stats : AcceptStats) :
    Leads P (reportPeriod name stats : Act (AnnealingSchedule α) M α Unit) (fun _ => P) E := by
  unfold reportPeriod
  exact leads_part_bind_any fun _ => leads_report fun _ _ h => h

theorem AnnealingSchedule.start_leads (domainSize : Nat)
    {P E : AnnealingSchedule α → Solution M α → Prop} :
    Leads P (start domainSize : Act (AnnealingSchedule α) M α Unit)
      (fun _ s _ => ∃ s₀ : AnnealingSchedule α, s = s₀.init domainSize) E := by
  unfold start
  refine Leads.bind (Q := fun _ s _ => ∃ s₀ : AnnealingSchedule α, s = s₀.init domainSize)
    (leads_change fun s₀ _ _ => ⟨s₀, rfl⟩) fun _ => ?_
  exact leads_part_bind_any fun _ => leads_report fun _ _ h => h

variable [Model M V α]

theorem AnnealingSchedule.step_leads (s : AnnealingSchedule α) (sol : Solution M α) :
    Leads (At s sol) (step : Act (AnnealingSchedule α) M α AnnealingTurn)
      (fun turn s' _ => s' = s.advance.1 ∧ turn = s.advance.2) (fun _ _ => False) := by
  have hreports :
      Leads (fun s' _ => s' = s.advance.1)
        (do
          if s.advance.2.reheated then reportPeriod "reheat" s.stats
          if s.advance.2.cooled then reportPeriod "cool" s.stats
          return s.advance.2 : Act (AnnealingSchedule α) M α AnnealingTurn)
        (fun turn s' _ => s' = s.advance.1 ∧ turn = s.advance.2) (fun _ _ => False) := by
    dsimp only
    refine leads_when (reportPeriod_leads _ _) fun _ => ?_
    refine leads_when (reportPeriod_leads _ _) fun _ => ?_
    exact leads_pure fun _ _ h => ⟨h, rfl⟩
  unfold step
  refine leads_part_bind_at ?_
  dsimp only
  refine Leads.bind (Q := fun _ s' _ => s' = s.advance.1) (leads_change fun _ _ _ => rfl)
    fun _ => ?_
  split
  · refine Leads.bind (Q := fun _ s' _ => s' = s.advance.1) ?_ fun _ => ?_
    · exact leads_onWorld fun _ => Attempt.ensures_modify fun _ h => h
    · exact leads_report_bind fun _ => hreports
  · exact hreports

end

/-! ## Attempts -/

/-- How many of its moves a decision accepts. A dropped move has won the vote. -/
def Group.Decision.wins : Group.Decision → Nat
  | accepted => 1
  | refused => 0
  | dropped => 1

namespace Group

variable {G M V α : Type} [Scalar α]

omit [Scalar α] in
/-- Both schedules have made `n` iterations. The first iteration of the water level only sets its
bound. -/
structure Counts (n : Nat) (g : Group G α) : Prop where
  deluge : g.deluge.iteration = n
  annealing : ∀ s, g.annealing = some s → s.iteration = n
  unset : g.deluge.bound = none → n = 0

omit [Scalar α] in
/-- The same when there is a bound. -/
structure Polled (n : Nat) (g : Group G α) : Prop where
  deluge : g.deluge.iteration = n
  annealing : ∀ s, g.annealing = some s → s.iteration = n
  bound : g.deluge.bound ≠ none

omit [Scalar α] in
theorem Polled.counts {n : Nat} {g : Group G α} (h : g.Polled n) : g.Counts n :=
  ⟨h.deluge, h.annealing, fun hnone => absurd hnone h.bound⟩

omit [Scalar α] in
/-- The heuristic has no part in the schedules. -/
theorem polled_onHeuristic {β : Type} {n : Nat} {K : Option (AnnealingSchedule α) → Prop}
    {x : Act (Heuristic G α) M α β} :
    Leads (fun g _ => Polled n g ∧ K g.annealing) (onHeuristic x)
      (fun _ g _ => Polled n g ∧ K g.annealing) (fun _ _ => True) := by
  refine Leads.mono_error (leads_within_of_kept (K := fun g => Polled n g ∧ K g.annealing) ?_)
    fun _ _ _ => trivial
  intro g h hg
  exact ⟨⟨hg.1.deluge, hg.1.annealing, hg.1.bound⟩, hg.2⟩

theorem advanceDeluge_leads (reference : α) (g : Group G α) (sol : Solution M α) :
    Leads (At g sol) (advanceDeluge reference : Act (Group G α) M α Unit)
      (fun _ => At { g with deluge := (g.deluge.advance reference).1 } sol)
      (fun _ _ => False) := by
  unfold advanceDeluge
  refine Leads.bind (Q := fun _ => At { g with deluge := (g.deluge.advance reference).1 } sol)
    ?_ fun _ => leads_pure fun _ _ h => h
  refine leads_within fun g₁ sol₁ hg₁ => ?_
  rw [hg₁.1]
  refine (DelugeSchedule.step_leads reference _ _).mono (fun _ _ h => h) (fun _ d sol' hd => ?_)
    fun _ _ h => h
  rw [hd.2.1, hd.2.2, hg₁.2]
  exact ⟨rfl, rfl⟩

/-- A move that stays under water advances the water level, which decides alone. -/
theorem decideByDeluge_counts (n index : Nat) (delta total reference : α) :
    Leads (fun g _ => Polled n g ∧ g.annealing = none)
      (decideByDeluge index delta total reference : Act (Group G α) M α Bool)
      (fun accepted g _ => Polled (n + if accepted then 1 else 0) g) (fun _ _ => True) := by
  have hadvance :
      Leads (fun g _ => Polled n g ∧ g.annealing = none)
        (advanceDeluge reference >>= fun _ => pure true : Act (Group G α) M α Bool)
        (fun accepted g _ => Polled (n + if accepted then 1 else 0) g) (fun _ _ => True) := by
    refine leads_of_at fun g sol ⟨hg, hnone⟩ => ?_
    refine Leads.bind ((advanceDeluge_leads reference g sol).mono_error fun _ _ h => h.elim)
      fun _ => leads_pure fun g' _ hg' => ?_
    rw [hg'.1]
    refine ⟨?_, fun s hs => ?_, DelugeSchedule.bound_advance _ _⟩
    · show (g.deluge.advance reference).1.iteration = n + 1
      rw [DelugeSchedule.iteration_advance hg.bound, hg.deluge]
    · cases hnone.symm.trans hs
  unfold decideByDeluge
  refine leads_part_bind_any fun g => ?_
  dsimp only
  split
  · exact leads_pure fun _ _ h => h.1
  · split
    · refine leads_solution_bind_any fun sol => ?_
      refine Leads.bind (Q := fun _ g _ => Polled n g ∧ g.annealing = none) ?_ fun _ => hadvance
      exact polled_onHeuristic (K := (· = none))
    · exact hadvance

variable [Model M V α]

/-- A vote that is won advances both schedules, and the move may still be dropped. -/
theorem decideByVote_counts (n : Nat) (s : AnnealingSchedule α) (delta total reference : α) :
    Leads (fun g _ => Polled n g ∧ g.annealing = some s)
      (decideByVote s delta total reference : Act (Group G α) M α Decision)
      (fun decision g _ => Polled (n + decision.wins) g) (fun _ _ => True) := by
  unfold decideByVote
  refine leads_get_bind fun g w hg => ?_
  dsimp only
  refine Leads.bind (Q := fun _ g _ => Polled n g ∧ g.annealing = some s)
    (leads_set fun _ _ _ => hg) fun _ => ?_
  split
  · exact leads_pure fun _ _ h => h.1
  -- the temperature is one iteration ahead of the water level now
  refine Leads.bind (Q := fun _ g _ => (g.deluge.iteration = n ∧ g.deluge.bound ≠ none) ∧
    ∃ s', g.annealing = some s' ∧ s'.iteration = n + 1) ?_ fun turn => ?_
  · refine leads_within fun g sol hg => ?_
    refine (AnnealingSchedule.step_leads s sol).mono (fun _ _ h => h) (fun _ s' _ hs' => ?_)
      fun _ _ h => h.elim
    refine ⟨⟨hg.1.deluge, hg.1.bound⟩, s', rfl, ?_⟩
    rw [hs'.1, AnnealingSchedule.iteration_advance, hg.1.annealing s hg.2]
  refine Leads.bind (Q := fun _ g _ => Polled (n + 1) g) ?_ fun _ => ?_
  · refine leads_of_at fun g sol ⟨hdeluge, s', hs', hiteration⟩ => ?_
    refine (advanceDeluge_leads reference g sol).mono (fun _ _ h => h) (fun _ g' _ hg' => ?_)
      fun _ _ h => h.elim
    rw [hg'.1]
    refine ⟨?_, fun s₁ hs₁ => ?_, DelugeSchedule.bound_advance _ _⟩
    · show (g.deluge.advance reference).1.iteration = n + 1
      rw [DelugeSchedule.iteration_advance hdeluge.2, hdeluge.1]
    · cases hs'.symm.trans hs₁
      exact hiteration
  split
  · exact leads_pure fun _ _ h => h
  · refine Leads.bind (Q := fun _ g _ => Polled (n + 1) g) (leads_change fun g _ hg => ?_)
      fun _ => leads_pure fun _ _ h => h
    refine ⟨hg.deluge, fun s₁ hs₁ => ?_, hg.bound⟩
    obtain ⟨s', hs', rfl⟩ := Option.map_eq_some_iff.1 hs₁
    exact hg.annealing s' hs'

theorem decide_counts (n index : Nat) (delta reference : α) :
    Leads (fun g _ => Polled n g) (decide index delta reference : Act (Group G α) M α Decision)
      (fun decision g _ => Polled (n + decision.wins) g) (fun _ _ => True) := by
  unfold decide
  refine leads_solution_bind_any fun sol => ?_
  refine leads_lift_bind (fun _ _ _ => trivial) fun total _ => ?_
  refine leads_part_bind fun g sol hg => ?_
  cases hannealing : g.annealing with
  | some s => exact (decideByVote_counts n s delta total reference).at ⟨hg, hannealing⟩
  | none =>
    have hdeluge := (decideByDeluge_counts (G := G) (M := M) n index delta total reference).at
      (t := g) (s := sol) ⟨hg, hannealing⟩
    refine Leads.bind hdeluge fun accepted => leads_pure fun _ _ h => ?_
    cases accepted with
    | false => exact h
    | true => exact h

variable [MoveGenerator G M V α]

/-- The draw of an attempt and the decision on a move with a known effect, if one was drawn. -/
def ballot (reference : α) : Act (Group G α) M α (Option Decision) := do
  match ← onHeuristic drawCandidate with
  | .candidate index (.eager m) => return some (← decide index m.delta reference)
  | _ => return none

/-- How many moves win the vote in an attempt. -/
def wins (reference : α) (s : Group G α × World M α) : Nat :=
  match ballot reference s with
  | .ok (some decision) _ => decision.wins
  | _ => 0

section

variable {reference : α} {s s₁ : Group G α × World M α}

theorem wins_of_eager {index : Nat} {m : Move V α}
    (hdraw : (onHeuristic drawCandidate : Act (Group G α) M α (Drawn V α)) s =
      .ok (.candidate index (.eager m)) s₁)
    {decision : Decision} {s₂ : Group G α × World M α}
    (hdecide : decide index m.delta reference s₁ = .ok decision s₂) :
    wins reference s = decision.wins := by
  unfold wins ballot
  rw [Attempt.bind_of_ok hdraw]
  dsimp only
  rw [Attempt.bind_of_ok hdecide]
  rfl

theorem wins_of_not_eager {d : Drawn V α}
    (hdraw : (onHeuristic drawCandidate : Act (Group G α) M α (Drawn V α)) s = .ok d s₁)
    (hd : ∀ index m, d ≠ .candidate index (.eager m)) : wins reference s = 0 := by
  unfold wins ballot
  rw [Attempt.bind_of_ok hdraw]
  rcases d with _ | _ | ⟨index, c | c⟩
  · rfl
  · rfl
  · exact absurd rfl (hd index _)
  · rfl

end

/-- An attempt advances the schedules once if a move wins its vote, and not at all otherwise. -/
theorem attempt_counts (reference : α) (n : Nat) (s : Group G α × World M α)
    (hs : s.1.Polled n) :
    Attempt.Ensures (· = s) (attempt reference : Act (Group G α) M α (Option (Proposal V α)))
      (fun _ s' => s'.1.Polled (n + wins reference s)) (fun _ => True) := by
  have hkept {k : Nat} {β : Type} {x : Act (Heuristic G α) M α β} :
      Leads (fun g _ => Polled k g ∧ True) (onHeuristic x : Act (Group G α) M α β)
        (fun _ g _ => Polled k g ∧ True) (fun _ _ => True) :=
    polled_onHeuristic (K := fun _ => True)
  unfold attempt
  refine Attempt.ensures_bind_at (fun d s₁ hdraw => ?_) fun _ _ _ => trivial
  have hpolled : s₁.1.Polled n := (Attempt.Ensures.of_ok hkept ⟨hs, trivial⟩ hdraw).1
  -- only a move is voted on here; the rule of a lazy change takes a number from the random stream
  rcases d with _ | _ | ⟨index, m | c⟩
  · rw [wins_of_not_eager hdraw nofun]
    exact Attempt.ensures_pure fun s' hs' => hs' ▸ hpolled
  · rw [wins_of_not_eager hdraw nofun]
    exact Attempt.ensures_pure fun s' hs' => hs' ▸ hpolled
  · refine Attempt.ensures_bind_at (fun decision s₂ hdecide => ?_) fun _ _ _ => trivial
    have hnext : s₂.1.Polled (n + decision.wins) :=
      Attempt.Ensures.of_ok (decide_counts n index m.delta reference) hpolled hdecide
    rw [wins_of_eager hdraw hdecide]
    have hreport {x : Act (Heuristic G α) M α Unit} {p? : Option (Proposal V α)} :
        Attempt.Ensures (· = s₂) (onHeuristic x >>= fun _ => pure p?)
          (fun _ s' => s'.1.Polled (n + decision.wins)) (fun _ => True) := by
      refine Attempt.ensures_bind_at (fun _ s₃ hrun => ?_) fun _ _ _ => trivial
      exact Attempt.ensures_pure fun s' hs' =>
        hs' ▸ (Attempt.Ensures.of_ok hkept ⟨hnext, trivial⟩ hrun).1
    cases decision with
    | dropped => exact Attempt.ensures_pure fun s' hs' => hs' ▸ hnext
    | refused => exact hreport
    | accepted => exact hreport
  · rw [wins_of_not_eager hdraw nofun]
    refine Attempt.ensures_bind_at (fun rule s₂ hrun => ?_) fun _ _ _ => trivial
    unfold criterion at hrun
    cases hrun
    exact Attempt.ensures_pure fun s' hs' => hs' ▸ hpolled

/-! ## Calls -/

/-- The reference value of a vote, for which the water level gets its bound. -/
def openVote : Act (Group G α) M α α := do
  let reference ← (← Act.solution).referenceValue
  if (← Act.part).deluge.bound.isNone then advanceDeluge reference
  return reference

/-- A call up to its vote: an offer of construction, or the reference value of the vote. -/
def opening : Act (Group G α) M α (Proposal V α ⊕ α) := do
  if (← Act.part).constructed then return .inr (← openVote)
  else
    match ← onConstruction Construction.select with
    | some proposal => return .inl proposal
    | none =>
      Act.change fun g => { g with constructed := true }
      let iteration := (← Act.solution).iteration
      Act.report .debug "phase_switch" fun _ => [
        ("from", .text "construction"), ("to", .text "group"), ("iteration", .count iteration)]
      return .inr (← openVote)

theorem selectByVote_eq :
    (selectByVote : Act (Group G α) M α (Option (Proposal V α))) = (do
      let reference ← openVote
      Attempt.firstOf (attempt reference) maxAttempts) := by
  unfold selectByVote openVote
  simp only [bind_assoc]
  congr 1
  funext sol
  congr 1
  funext reference
  congr 1
  funext g
  split
  · simp only [bind_assoc, pure_bind]
  · simp only [pure_bind]

theorem select_eq :
    (select : Act (Group G α) M α (Option (Proposal V α))) = (do
      match ← opening with
      | .inl proposal => return some proposal
      | .inr reference => Attempt.firstOf (attempt reference) maxAttempts) := by
  unfold select opening
  rw [selectByVote_eq]
  simp only [bind_assoc]
  congr 1
  funext g
  split
  · simp only [bind_assoc, pure_bind]
  · simp only [bind_assoc]
    congr 1
    funext p?
    cases p? with
    | some p => simp only [pure_bind]
    | none => simp only [bind_assoc, pure_bind]

omit [MoveGenerator G M V α] in
theorem openVote_counts (n : Nat) :
    Leads (fun g _ => Counts n g) (openVote : Act (Group G α) M α α) (fun _ g _ => Polled n g)
      (fun _ _ => True) := by
  unfold openVote
  refine leads_solution_bind_any fun sol => ?_
  refine leads_lift_bind (fun _ _ _ => trivial) fun reference _ => ?_
  refine leads_part_bind fun g sol hg => ?_
  dsimp only
  split
  case isTrue hnone =>
    have hbound : g.deluge.bound = none := Option.isNone_iff_eq_none.1 hnone
    refine Leads.bind ((advanceDeluge_leads reference g sol).mono_error fun _ _ h => h.elim)
      fun _ => leads_pure fun g' _ hg' => ?_
    rw [hg'.1]
    refine ⟨?_, hg.annealing, DelugeSchedule.bound_advance _ _⟩
    show (g.deluge.advance reference).1.iteration = n
    rw [DelugeSchedule.iteration_advance_unset hbound, hg.unset hbound]
  case isFalse hsome =>
    refine leads_pure fun g' _ hg' => ?_
    rw [hg'.1]
    exact ⟨hg.deluge, hg.annealing, fun hnone => hsome (Option.isNone_iff_eq_none.2 hnone)⟩

omit [MoveGenerator G M V α] in
/-- Before the vote no iteration is counted. -/
theorem opening_counts (n : Nat) :
    Leads (fun g _ => Counts n g) (opening : Act (Group G α) M α (Proposal V α ⊕ α))
      (fun answer g _ => Counts n g ∧ ∀ reference, answer = .inr reference → Polled n g)
      (fun _ _ => True) := by
  have hvote : Leads (fun g _ => Counts n g)
      (openVote >>= fun reference => pure (.inr reference) :
        Act (Group G α) M α (Proposal V α ⊕ α))
      (fun answer g _ => Counts n g ∧ ∀ reference, answer = .inr reference → Polled n g)
      (fun _ _ => True) :=
    Leads.bind (openVote_counts n) fun reference => leads_pure fun _ _ h => ⟨h.counts, fun _ _ => h⟩
  unfold opening
  refine leads_part_bind_any fun g => ?_
  split
  · exact hvote
  refine Leads.bind (Q := fun _ g _ => Counts n g) ?_ fun p? => ?_
  · refine Leads.mono_error (leads_within_of_kept (K := Counts n) ?_) fun _ _ _ => trivial
    intro g c hg
    exact ⟨hg.deluge, hg.annealing, hg.unset⟩
  cases p? with
  | some p => exact leads_pure fun _ _ h => ⟨h, fun _ hanswer => by cases hanswer⟩
  | none =>
    refine Leads.bind (Q := fun _ g _ => Counts n g) (leads_change fun _ _ h => ?_) fun _ => ?_
    · exact ⟨h.deluge, h.annealing, h.unset⟩
    refine leads_solution_bind_any fun sol => ?_
    exact leads_report_bind fun _ => hvote

/-- How many moves win the vote in a call. -/
def won (g : Group G α) (w : World M α) : Nat :=
  match opening (g, w) with
  | .ok (.inr reference) s => Attempt.tally (wins reference) (attempt reference) maxAttempts s
  | _ => 0

/-- How many lazy changes of a call stay when they are made right after it. -/
def applied (g : Group G α) (w : World M α) : Nat :=
  match (select : Act (Group G α) M α (Option (Proposal V α))) (g, w) with
  | .ok (some (.lazy c criterion)) s =>
    match (Proposal.lazy c criterion).commit s.2.solution.model with
    | .ok (.applied _) _ => 1
    | _ => 0
  | _ => 0

/-- A call advances the schedules once for every move that wins its vote. -/
theorem select_counts (n : Nat) (g : Group G α) (w : World M α) (hg : g.Counts n) :
    Attempt.Ensures (· = (g, w)) (select : Act (Group G α) M α (Option (Proposal V α)))
      (fun _ s => s.1.Counts (n + g.won w)) (fun _ => True) := by
  rw [select_eq]
  refine Attempt.ensures_bind_at (fun answer s hopening => ?_) fun _ _ _ => trivial
  have hnext := Attempt.Ensures.of_ok (opening_counts n) hg hopening
  cases answer with
  | inl p =>
    have hwon : g.won w = 0 := by
      unfold won
      rw [hopening]
    rw [hwon]
    exact Attempt.ensures_pure fun s' hs' => hs' ▸ hnext.1
  | inr reference =>
    have hwon : g.won w =
        Attempt.tally (wins reference) (attempt reference) maxAttempts s := by
      unfold won
      rw [hopening]
    rw [hwon]
    have hloop := Attempt.ensures_firstOf_tally (P := fun k s => s.1.Polled k)
      (fun k s hs => attempt_counts reference k s hs) maxAttempts n s (hnext.2 reference rfl)
    exact hloop.mono_post fun _ _ h => h.counts

theorem init_counts :
    Leads (fun _ _ => True) (init : Act (Group G α) M α Unit) (fun _ g _ => g.Counts 0)
      (fun _ _ => True) := by
  unfold init
  refine Leads.bind (Q := fun _ _ _ => True) Attempt.ensures_any fun _ => ?_
  refine leads_solution_bind_any fun sol => ?_
  refine Leads.bind (Q := fun _ _ _ => True) Attempt.ensures_any fun _ => ?_
  refine Leads.bind (Q := fun _ g _ => g.deluge.iteration = 0) (leads_change fun _ _ _ => rfl)
    fun _ => ?_
  refine leads_part_bind fun g sol hg => ?_
  split
  case h_1 s hs =>
    refine leads_lift_bind (fun _ _ _ => trivial) fun domainSize _ => ?_
    refine leads_within fun g' sol' hg' => ?_
    refine (AnnealingSchedule.start_leads domainSize).mono_post fun _ s' _ ⟨s₀, hs'⟩ => ?_
    refine ⟨?_, fun s₁ hs₁ => ?_, fun _ => rfl⟩
    · show g'.deluge.iteration = 0
      rw [hg'.1, hg]
    · cases hs₁
      rw [hs']
      rfl
  case h_2 hs =>
    refine leads_pure fun g' _ hg' => ?_
    rw [hg'.1]
    exact ⟨hg, fun s hsome => absurd hsome (hs s), fun _ => rfl⟩

/-! ## Searches -/

variable (M) in
/-- A search by group acceptance whose calls succeed, with the moves that won their votes and the
lazy changes that stayed. A guard may keep a lazy change of a call from being made. -/
inductive Runs : Nat → Nat → Group G α → Prop
  | init (g : Group G α) (w : World M α)
    (hok : (Attempt.answer? (init : Act (Group G α) M α Unit) (g, w)).isSome) :
    Runs 0 0 ((init : Act (Group G α) M α Unit).after (g, w)).1
  | select {moves changes : Nat} {g : Group G α} (run : Runs moves changes g) (w : World M α)
    (kept : Bool)
    (hok : (Attempt.answer? (select : Act (Group G α) M α (Option (Proposal V α)))
      (g, w)).isSome) :
    Runs (moves + g.won w) (changes + if kept then g.applied w else 0)
      ((select : Act (Group G α) M α (Option (Proposal V α))).after (g, w)).1
  | bestSaved {moves changes : Nat} {g : Group G α} (run : Runs moves changes g) :
    Runs moves changes (Strategy.bestSaved M g)
  | resetScores {moves changes : Nat} {g : Group G α} (run : Runs moves changes g) :
    Runs moves changes (Strategy.resetScores M g)

theorem Runs.counts {moves changes : Nat} {g : Group G α} (run : Runs M moves changes g) :
    g.Counts moves := by
  induction run with
  | init g w hok =>
    obtain ⟨_, hrun⟩ := Attempt.exists_ok_after hok
    exact Attempt.Ensures.of_ok init_counts trivial hrun
  | select run w kept hok ih =>
    obtain ⟨_, hrun⟩ := Attempt.exists_ok_after hok
    exact Attempt.Ensures.of_ok (select_counts _ _ w ih) rfl hrun
  | bestSaved run ih =>
    refine ⟨ih.deluge, fun s hs => ?_, ih.unset⟩
    obtain ⟨s', hs', rfl⟩ := Option.map_eq_some_iff.1 hs
    exact ih.annealing s' hs'
  | resetScores run ih => exact ⟨ih.deluge, ih.annealing, ih.unset⟩

/-- Both schedules make an iteration for every move that wins its vote, and for nothing else. So
they count the accepted candidates exactly if no lazy change has stayed. -/
theorem iterations_of_runs {moves changes : Nat} {g : Group G α} (run : Runs M moves changes g) :
    (g.deluge.iteration = moves ∧ ∀ s, g.annealing = some s → s.iteration = moves) ∧
      (g.deluge.iteration = moves + changes ↔ changes = 0) ∧
      ∀ (reference : α) (n : Nat) (s s' : Group G α × World M α) (p? : Option (Proposal V α)),
        s.1.Polled n → attempt reference s = .ok p? s' → s'.1.Polled (n + wins reference s) := by
  have hdeluge := run.counts.deluge
  refine ⟨⟨hdeluge, run.counts.annealing⟩, ?_, ?_⟩
  · omega
  · intro reference n s s' p? hs hrun
    exact (attempt_counts reference n s hs).of_ok rfl hrun

/-- Group acceptance over one selector, with both schedules. -/
def jury (moves : BasicGenerator Empty) : Group (Generator Empty ℚ) ℚ :=
  .of (.of .standard) ⟨[.of "moves" (.basic moves) 0], .fresh 1, {}, false⟩
    (.of .standard false false) (some (.of .standard true))

/-- A variable with two options of the same cost. -/
def indifferent : World (Penalty ℚ) ℚ :=
  .ofSolution (.ofModel ⟨[[4, 4]], [some 0], none, 0⟩) (.standard 0) none

/-- The jury at the start of a search. -/
def sworn (moves : BasicGenerator Empty) : Group (Generator Empty ℚ) ℚ :=
  ((init : Act _ (Penalty ℚ) ℚ Unit).after (jury moves, indifferent)).1

/-- The jury after its first call. -/
def heard (moves : BasicGenerator Empty) : Group (Generator Empty ℚ) ℚ :=
  ((select : Act _ (Penalty ℚ) ℚ (Option (Proposal Nat ℚ))).after (sworn moves, indifferent)).1

theorem runs_heard (moves : BasicGenerator Empty)
    (hinit : (Attempt.answer? (init : Act _ (Penalty ℚ) ℚ Unit)
      (jury moves, indifferent)).isSome)
    (hselect : (Attempt.answer? (select : Act _ (Penalty ℚ) ℚ (Option (Proposal Nat ℚ)))
      (sworn moves, indifferent)).isSome) :
    Runs (Penalty ℚ) ((sworn moves).won indifferent) ((sworn moves).applied indifferent)
      (heard moves) := by
  have run := (Runs.init (jury moves) indifferent hinit).select indifferent true hselect
  rw [Nat.zero_add, Nat.zero_add] at run
  exact run

/-- A change with a known effect wins its vote. -/
theorem iterations_of_runs_change :
    Runs (Penalty ℚ) 1 0 (heard (.change false)) ∧
      (heard (.change false)).deluge.iteration = 1 ∧
      ((heard (.change false)).annealing.map (·.iteration)) = some 1 := by
  have hwon : (sworn (.change false)).won indifferent = 1 := by decide +kernel
  have happlied : (sworn (.change false)).applied indifferent = 0 := by decide +kernel
  have run := runs_heard (.change false) (by decide +kernel) (by decide +kernel)
  rw [hwon, happlied] at run
  exact ⟨run, (iterations_of_runs run).1.1, by decide +kernel⟩

/-- A lazy change stays, and no schedule makes an iteration. -/
theorem iterations_of_lazy_change :
    Runs (Penalty ℚ) 0 1 (heard .lazyChange) ∧
      (heard .lazyChange).deluge.iteration = 0 ∧
      ((heard .lazyChange).annealing.map (·.iteration)) = some 0 := by
  have hwon : (sworn .lazyChange).won indifferent = 0 := by decide +kernel
  have happlied : (sworn .lazyChange).applied indifferent = 1 := by decide +kernel
  have run := runs_heard .lazyChange (by decide +kernel) (by decide +kernel)
  rw [hwon, happlied] at run
  exact ⟨run, by decide +kernel, by decide +kernel⟩

end Group

end LocalSearch
