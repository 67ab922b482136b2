import LocalSearch.Proofs.Sequence.Chain
import LocalSearch.Strategy.GreatDeluge
import LocalSearch.Strategy.HillClimbing
import LocalSearch.Strategy.SimulatedAnnealing
/-!
# Attempts of the acceptance strategies

Hill climbing, great deluge and simulated annealing call for a proposal by attempts: each draws a
candidate, and the first that gives an answer ends the call. They decide by different rules, but
what an attempt does to the notes of their heuristic is the same for all three.

* `Notes.Draws`: what a draw does to the notes. `leads_draw`: the draw of a strategy does no more.
* `Notes.Turn`: what an attempt may do to the notes, with its draw and its answer.
* `Strategy.TakesTurns`: the attempts of a strategy are of this form.
* `Notes.Selects`, `Strategy.TakesTurns.firstOf_selects`: what a call does to the notes.
-/

namespace LocalSearch

open Act

variable {S G M V α : Type}

/-- The candidate that a draw gives in a state, with the selector that proposed it. -/
def Act.candidate? (draw : Act S M α (Drawn V α)) (s : S × World M α) :
    Option (Nat × Candidate V α) :=
  match draw s with
  | .ok (.candidate i c) _ => some (i, c)
  | _ => none

/-- What can be seen in the state in which a loop of attempts starts the last one. -/
def Attempt.lookLast {σ β γ : Type} (look : σ → Option γ) (attempt : Attempt σ (Option β)) :
    Nat → σ → Option γ
  | 0, _ => none
  | n + 1, s =>
    match attempt s with
    | .ok none s' => lookLast look attempt n s'
    | _ => look s

/-- Attempts in a row, of which one without an answer may be repeated. What the last one leads to may
speak of what can be seen when it starts. -/
theorem Attempt.ensures_firstOf_lookLast {σ β γ : Type} (look : σ → Option γ)
    {attempt : Attempt σ (Option β)} {P E : σ → Prop} {Q : Option γ → β → σ → Prop}
    (h : ∀ s, P s →
      Ensures (· = s) attempt (fun answer s' => answer.elim (P s') (Q (look s) · s')) E)
    (n : Nat) (s : σ) (hs : P s) :
    Ensures (· = s) (firstOf attempt n)
      (fun answer s' => answer.elim (P s') (Q (lookLast look attempt n s) · s')) E := by
  induction n generalizing s with
  | zero => exact ensures_pure fun _ hs' => hs' ▸ hs
  | succ n ih =>
    unfold firstOf
    refine ensures_bind_at (fun answer s' hrun => ?_) fun _ _ hrun => (h s hs).of_error rfl hrun
    have hnext := (h s hs).of_ok rfl hrun
    unfold lookLast
    rw [hrun]
    cases answer with
    | none => exact ih s' hnext
    | some b => exact ensures_pure fun _ hs' => hs' ▸ hnext

/-! ## Draws -/

namespace Notes

/-- What a draw does to the notes. -/
inductive Draws (n : Notes α) : Drawn V α → Notes α → Prop
  | yield : n.Draws .yield n
  | empty (ended : Bool) : n.Draws .empty ((n.pick ended).follow n.chain.fail)
  | candidate {i : Nat} {ended : Bool} (hpicked : n.Picked i ended) (c : Candidate V α) :
    n.Draws (.candidate i c) (n.pick ended)

variable [Scalar α]

/-- What an attempt does to the notes. An accepted move is put down in the chain, and one that does
not make things worse in the tables as well. -/
inductive Turn (n : Notes α) : Drawn V α → Option (Option (Proposal V α)) → Notes α → Prop
  /-- There was no draw, and nothing is offered. -/
  | yield : n.Turn .yield (some none) n
  | empty (ended : Bool) : n.Turn .empty none ((n.pick ended).follow n.chain.fail)
  | lazy {i : Nat} {ended : Bool} (hpicked : n.Picked i ended) (c : LazyChange V)
    (criterion : Criterion α) :
    n.Turn (.candidate i (.lazy c)) (some (some (.lazy c criterion))) (n.pick ended)
  | refused {i : Nat} {ended : Bool} (hpicked : n.Picked i ended) (m : Move V α) :
    n.Turn (.candidate i (.eager m)) none ((n.pick ended).follow n.chain.fail)
  | worse {i : Nat} {ended : Bool} (hpicked : n.Picked i ended) (m : Move V α)
    (hworse : ¬m.delta ≤ 0) :
    n.Turn (.candidate i (.eager m)) (some (some (.move m)))
      ((n.pick ended).follow n.chain.succeed)
  | improved {i : Nat} {ended : Bool} (hpicked : n.Picked i ended) (m : Move V α)
    (himproved : m.delta ≤ 0) (time : α) :
    n.Turn (.candidate i (.eager m)) (some (some (.move m)))
      ((n.pick ended).improve n.config.learningMethod i m.delta time)

end Notes

section

variable (view : S → Heuristic G α) (put : S → Heuristic G α → S)

/-- What an operation on the heuristic of a strategy does to its notes. -/
theorem Act.leads_heuristic (hput : ∀ s h, view (put s h) = h) {β : Type}
    {x : Act (Heuristic G α) M α β} {P E : Notes α → Prop} {Q : β → Notes α → Prop}
    (h : Leads (fun h _ => P h.notes) x (fun b h _ => Q b h.notes) (fun h _ => E h.notes)) :
    Leads (fun s _ => P (view s).notes) (within view put x : Act S M α β)
      (fun b s _ => Q b (view s).notes) (fun s _ => E (view s).notes) := by
  refine leads_within fun s _ hs => ?_
  refine (h.mono (fun _ _ h => h) (fun b u _ hQ => ?_) fun u _ hE => ?_).at hs
  · rw [hput]
    exact hQ
  · rw [hput]
    exact hE

end

variable [Scalar α]

section

variable [MoveGenerator G M V α]

theorem drawCandidate_draws {n : Notes α} (hn : n.Sound) :
    Leads (fun h _ => h.notes = n) (drawCandidate : Act (Heuristic G α) M α (Drawn V α))
      (fun d h _ => n.Draws d h.notes) (fun h _ => ∃ ended, h.notes = n.pick ended) := by
  unfold drawCandidate
  refine Leads.bind (Heuristic.draw_leads hn) fun answer => ?_
  obtain ⟨i, c?⟩ := answer
  cases c? with
  | none =>
    refine Leads.bind (Q := fun _ h _ => n.Draws (V := V) .empty h.notes) ?_ fun _ => ?_
    · refine leads_change fun h _ hpicked => ?_
      obtain ⟨ended, -, hnotes⟩ := hpicked
      show n.Draws .empty (h.notes.follow h.notes.chain.fail)
      rw [hnotes]
      exact .empty ended
    · exact leads_pure fun _ _ h => h
  | some c =>
    refine leads_pure fun h _ hpicked => ?_
    obtain ⟨ended, hpicked, hnotes⟩ := hpicked
    rw [hnotes]
    exact .candidate hpicked c

/-- Only a schedule hands over. -/
theorem drawCandidate_ne_yield {P : Heuristic G α → Solution M α → Prop} :
    Leads P (drawCandidate : Act (Heuristic G α) M α (Drawn V α)) (fun d _ _ => d ≠ .yield)
      (fun _ _ => True) := by
  unfold drawCandidate
  refine Leads.bind (Q := fun _ _ _ => True)
    (Attempt.ensures_any.mono_pre fun _ _ => trivial) fun answer => ?_
  obtain ⟨i, c?⟩ := answer
  cases c? with
  | none =>
    exact Leads.bind (Q := fun _ _ _ => True) (leads_change fun _ _ h => h) fun _ =>
      leads_pure fun _ _ _ => nofun
  | some c => exact leads_pure fun _ _ _ => nofun

omit [MoveGenerator G M V α] in
/-- A reward does not fail. -/
theorem rewardMove_leads {n : Notes α} {i : Nat} (hn : n.Sound) (hpicked : n.Picked i n.ended)
    (delta : α) {E : Heuristic G α → Solution M α → Prop} :
    Leads (fun h _ => h.notes = n) (rewardMove i delta : Act (Heuristic G α) M α Unit)
      (fun _ h _ => ∃ time, h.notes = n.improve n.config.learningMethod i delta time) E := by
  unfold rewardMove
  refine leads_solution_bind_any fun s => ?_
  refine Attempt.ensures_focus fun t ht => Attempt.ensures_update_of_ok fun h hh => ?_
  have hnotes : h.notes = n := by
    rw [hh]
    exact ht
  subst hnotes
  obtain ⟨h', hreward, hnotes'⟩ := Heuristic.exists_reward hn hpicked delta s.time
  exact ⟨h', hreward, s.time, hnotes'⟩

omit [Scalar α] [MoveGenerator G M V α] in
/-- A report of an accepted move changes nothing and does not fail. -/
theorem reportAccept_leads {P E : Heuristic G α → Solution M α → Prop} (strategy : String)
    (index : Nat) (delta : α) (more : Unit → List (String × FieldValue α)) :
    Leads P (reportAccept strategy index delta more : Act (Heuristic G α) M α Unit)
      (fun _ => P) E := by
  unfold reportAccept
  exact leads_part_bind_any fun h => leads_report fun _ _ h => h

variable {view : S → Heuristic G α} {put : S → Heuristic G α → S} {n : Notes α}

variable (view put) in
/-- The draw of a strategy. -/
theorem leads_draw (hput : ∀ s h, view (put s h) = h) (hn : n.Sound) :
    Leads (fun s _ => (view s).notes = n) (within view put drawCandidate : Act S M α (Drawn V α))
      (fun d s _ => d ≠ .yield ∧ n.Draws d (view s).notes)
      (fun s _ => ∃ ended, (view s).notes = n.pick ended) :=
  leads_heuristic view put hput (P := (· = n)) (Q := fun d n' => d ≠ .yield ∧ n.Draws d n')
    (E := fun n' => ∃ ended, n' = n.pick ended)
    ((drawCandidate_ne_yield.and (drawCandidate_draws hn)).mono_error fun _ _ h => h.2)

/-- The draw of a strategy that marks a candidate outside its heuristic. -/
theorem leads_draw_mark {mark : S → S} {f : Drawn V α → Act S M α (Drawn V α)}
    (hput : ∀ s h, view (put s h) = h) (hn : n.Sound) (hmark : ∀ s, view (mark s) = view s)
    (hempty : f .empty = pure .empty)
    (hcandidate : ∀ i c, f (.candidate i c) = change mark >>= fun _ => pure (.candidate i c)) :
    Leads (fun s _ => (view s).notes = n) (within view put drawCandidate >>= f)
      (fun d s _ => n.Draws d (view s).notes)
      (fun s _ => ∃ ended, (view s).notes = n.pick ended) := by
  refine Leads.bind (leads_draw view put hput hn) fun d => ?_
  cases d with
  | yield => exact fun _ h => absurd rfl h.1
  | empty =>
    rw [hempty]
    exact leads_pure fun _ _ h => h.2
  | candidate i c =>
    rw [hcandidate]
    refine Leads.bind (Q := fun _ s _ => n.Draws (.candidate i c) (view s).notes)
      (leads_change fun s _ h => ?_) fun _ => leads_pure fun _ _ h => h
    rw [hmark]
    exact h.2

end

/-! ## Attempts -/

/-- Every attempt of a strategy is a turn. `candidate?` is the candidate that an attempt draws, if
it draws one. -/
def Strategy.TakesTurns (view : S → Heuristic G α)
    (candidate? : S × World M α → Option (Nat × Candidate V α))
    (attempt : Act S M α (Option (Option (Proposal V α)))) : Prop :=
  ∀ s, (view s.1).notes.Sound → Attempt.Ensures (· = s) attempt
    (fun answer s' => ∃ d, (∀ i c, d = .candidate i c → candidate? s = some (i, c)) ∧
      (view s.1).notes.Turn d answer (view s'.1).notes)
    (fun s' => ∃ ended, (view s'.1).notes = (view s.1).notes.pick ended)

section

variable {view : S → Heuristic G α} {put : S → Heuristic G α → S} {n : Notes α} {i : Nat}
  {ended : Bool} {E : S → Solution M α → Prop}

omit [Scalar α] in
/-- An answer of an operation on a part of the part is an answer there. -/
theorem of_within_eq_ok {T β : Type} {look : S → T} {write : S → T → S} {x : Act T M α β}
    {s s' : S × World M α} {b : β} (h : (within look write x : Act S M α β) s = .ok b s') :
    ∃ t, x (look s.1, s.2) = .ok b t := by
  simp only [within, Attempt.focus] at h
  cases hrun : x (look s.1, s.2) with
  | ok b' t =>
    rw [hrun] at h
    cases h
    exact ⟨t, rfl⟩
  | error e t =>
    rw [hrun] at h
    cases h

/-- What follows a draw makes a turn of it. -/
theorem ensures_draw_bind {draw : Act S M α (Drawn V α)} {D : Drawn V α → Notes α → Prop}
    {f : Drawn V α → Act S M α (Option (Option (Proposal V α)))} {s : S × World M α}
    {candidate? : Option (Nat × Candidate V α)}
    (hdraw : Leads (fun s _ => (view s).notes = n) draw (fun d s _ => D d (view s).notes)
      (fun s _ => ∃ ended, (view s).notes = n.pick ended))
    (hs : (view s.1).notes = n)
    (hcandidate : ∀ i c s', draw s = .ok (.candidate i c) s' → candidate? = some (i, c))
    (hf : ∀ d n', D d n' → Leads (fun s _ => (view s).notes = n') (f d)
      (fun answer s _ => n.Turn d answer (view s).notes)
      (fun s _ => ∃ ended, (view s).notes = n.pick ended)) :
    Attempt.Ensures (· = s) (draw >>= f)
      (fun answer s' => ∃ d, (∀ i c, d = .candidate i c → candidate? = some (i, c)) ∧
        n.Turn d answer (view s'.1).notes)
      (fun s' => ∃ ended, (view s'.1).notes = n.pick ended) := by
  refine Attempt.ensures_bind_at (fun d s' hrun => ?_) fun e s' hrun => hdraw.of_error hs hrun
  have hrest := hf d _ (hdraw.of_ok hs hrun)
  refine Attempt.Ensures.mono hrest (fun _ h => by rw [h]) (fun answer s' hturn => ?_) fun _ h => h
  refine ⟨d, fun i c hd => ?_, hturn⟩
  subst hd
  exact hcandidate i c _ hrun

/-- A candidate is refused. -/
theorem refuse_turn (hput : ∀ s h, view (put s h) = h) (hpicked : n.Picked i ended) (m : Move V α) :
    Leads (fun s _ => (view s).notes = n.pick ended)
      (do
        within view put (change Heuristic.fail)
        return none : Act S M α (Option (Option (Proposal V α))))
      (fun answer s _ => n.Turn (.candidate i (.eager m)) answer (view s).notes) E := by
  refine Leads.bind
    (Q := fun _ s _ => n.Turn (V := V) (.candidate i (.eager m)) none (view s).notes) ?_ fun _ => ?_
  · refine leads_within fun s _ hs => leads_change fun h _ hat => ?_
    rw [hat.1, hput]
    show n.Turn _ none ((view s).notes.follow (view s).notes.chain.fail)
    rw [hs]
    exact .refused hpicked m
  · exact leads_pure fun _ _ h => h

/-- A move that makes things worse is accepted. -/
theorem succeed_turn (hput : ∀ s h, view (put s h) = h) (hpicked : n.Picked i ended) {m : Move V α}
    (hworse : ¬m.delta ≤ 0) :
    Leads (fun s _ => (view s).notes = n.pick ended)
      (within view put (change Heuristic.succeed) : Act S M α Unit)
      (fun _ s _ => n.Turn (V := V) (.candidate i (.eager m)) (some (some (.move m)))
        (view s).notes) E := by
  refine leads_within fun s _ hs => leads_change fun h _ hat => ?_
  rw [hat.1, hput]
  show n.Turn _ _ ((view s).notes.follow (view s).notes.chain.succeed)
  rw [hs]
  exact .worse hpicked m hworse

/-- A move that does not make things worse is accepted. -/
theorem reward_turn {E : Heuristic G α → Solution M α → Prop} (hn : n.Sound)
    (hpicked : n.Picked i ended) {m : Move V α} (himproved : m.delta ≤ 0) :
    Leads (fun h _ => h.notes = n.pick ended)
      (rewardMove i m.delta : Act (Heuristic G α) M α Unit)
      (fun _ h _ => n.Turn (V := V) (.candidate i (.eager m)) (some (some (.move m))) h.notes)
      E := by
  have hpicked' : (n.pick ended).Picked i (n.pick ended).ended :=
    ⟨hpicked.lt_count, hpicked.notMem, hpicked.length_lt⟩
  refine (rewardMove_leads (hn.pick ended) hpicked' m.delta).mono_post fun _ h _ hnotes => ?_
  obtain ⟨time, hnotes⟩ := hnotes
  rw [hnotes]
  exact .improved hpicked m himproved time

/-- A strategy accepts a move that does not make things worse. -/
theorem improve_turn (hput : ∀ s h, view (put s h) = h) (hn : n.Sound)
    (hpicked : n.Picked i ended) {m : Move V α} (himproved : m.delta ≤ 0) :
    Leads (fun s _ => (view s).notes = n.pick ended)
      (within view put (rewardMove i m.delta) : Act S M α Unit)
      (fun _ s _ => n.Turn (V := V) (.candidate i (.eager m)) (some (some (.move m)))
        (view s).notes)
      (fun s _ => ∃ ended, (view s).notes = n.pick ended) :=
  leads_heuristic view put hput (P := (· = n.pick ended))
    (Q := fun _ n' => n.Turn (V := V) (.candidate i (.eager m)) (some (some (.move m))) n')
    (E := fun n' => ∃ ended, n' = n.pick ended) (reward_turn hn hpicked himproved)

variable (view put) in
/-- An accepted move is reported and offered. -/
theorem offer_turn {m : Move V α} (hput : ∀ s h, view (put s h) = h) (strategy : String)
    (more : S → Unit → List (String × FieldValue α)) :
    Leads (fun s _ => n.Turn (.candidate i (.eager m)) (some (some (.move m))) (view s).notes)
      (do
        let s ← part
        within view put (reportAccept strategy i m.delta (more s))
        return some (some (.move m)) : Act S M α (Option (Option (Proposal V α))))
      (fun answer s _ => n.Turn (.candidate i (.eager m)) answer (view s).notes) E := by
  refine leads_part_bind_any fun s => ?_
  refine Leads.bind (leads_heuristic view put (E := fun _ => False) hput
    (P := fun n' => n.Turn (.candidate i (.eager m)) (some (some (.move m))) n')
    (Q := fun _ n' => n.Turn (.candidate i (.eager m)) (some (some (.move m))) n')
    (reportAccept_leads _ _ _ _) |>.mono_error fun _ _ hfalse => hfalse.elim) fun _ => ?_
  exact leads_pure fun _ _ h => h

end

namespace HillClimbing

variable [MoveGenerator G M V α]

/-- The candidate of an attempt of hill climbing. -/
def candidate? (s : HillClimbing G α × World M α) : Option (Nat × Candidate V α) :=
  Act.candidate? drawCandidate (s.1.heuristic, s.2)

theorem takesTurns :
    Strategy.TakesTurns (·.heuristic) (candidate? (G := G) (M := M) (V := V)) attempt := by
  intro s hn
  let n := s.1.heuristic.notes
  unfold attempt
  refine Attempt.Ensures.bind
    (Q := fun _ s' => s' = ({ s.1 with iteration := s.1.iteration + 1 }, s.2))
    (Attempt.ensures_modify fun _ hs => by rw [hs]) fun _ => ensures_whole_part_bind ?_
  dsimp only
  by_cases hidle : s.1.maxIdle ≤ idle { s.1 with iteration := s.1.iteration + 1 }
  · rw [if_pos hidle]
    have hrest : Leads (fun s' _ => s'.heuristic.notes = n) (do
        Act.report .debug "idle" fun _ => [
          ("strategy", .text "hill_climbing"), ("attempts", .count (s.1.iteration + 1))]
        Act.change restartCount
        return some none : Act (HillClimbing G α) M α (Option (Option (Proposal V α))))
        (fun answer s' _ => n.Turn (V := V) .yield answer s'.heuristic.notes)
        (fun s' _ => ∃ ended, s'.heuristic.notes = n.pick ended) := by
      refine leads_report_bind fun _ => ?_
      refine Leads.bind (Q := fun _ s' _ => s'.heuristic.notes = n)
        (leads_change fun _ _ h => h) fun _ => leads_pure fun s' _ hs' => ?_
      rw [hs']
      exact .yield
    refine Attempt.Ensures.mono hrest (fun s' hs' => by rw [hs']) (fun answer s' h => ?_)
      fun s' h => h
    exact ⟨.yield, nofun, h⟩
  · rw [if_neg hidle]
    refine ensures_draw_bind (D := fun d n' => d ≠ .yield ∧ n.Draws d n')
      (leads_draw HillClimbing.heuristic _ (fun _ _ => rfl) hn) rfl (fun i c s' hrun => ?_)
      fun d n' hdraws => ?_
    · obtain ⟨t, ht⟩ := of_within_eq_ok hrun
      unfold candidate? Act.candidate?
      rw [ht]
    obtain ⟨hdrawn, hdraws⟩ := hdraws
    cases hdraws with
    | yield => exact absurd rfl hdrawn
    | empty ended => exact leads_pure fun s' _ hs' => hs' ▸ .empty ended
    | candidate hpicked c =>
      cases c with
      | lazy c => exact leads_pure fun s' _ hs' => hs' ▸ .lazy hpicked c _
      | eager m =>
        dsimp only
        by_cases himproved : m.delta ≤ 0
        · rw [if_pos himproved]
          refine Leads.bind ?_ fun _ => leads_pure fun s' _ hs' => hs'
          refine leads_heuristic HillClimbing.heuristic _ (fun _ _ => rfl)
            (P := (· = n.pick _)) (E := fun n' => ∃ ended, n' = n.pick ended)
            (Q := fun _ n' => n.Turn (.candidate _ (.eager m)) (some (some (.move m))) n') ?_
          exact (reward_turn hn hpicked himproved).bind fun _ => reportAccept_leads _ _ _ _
        · rw [if_neg himproved]
          exact refuse_turn (fun _ _ => rfl) hpicked m

end HillClimbing

namespace GreatDeluge

variable [MoveGenerator G M V α] [Model M V α]

omit [Scalar α] [MoveGenerator G M V α] [Model M V α] in
theorem spares_onSchedule {β : Type} (x : Act (DelugeSchedule α) M α β) :
    Spares heuristic (onSchedule x : Act (GreatDeluge G α) M α β) := by
  refine spares_within ?_ x
  exact fun _ _ => rfl

theorem draw_draws {n : Notes α} (hn : n.Sound) :
    Leads (fun d _ => d.heuristic.notes = n) (draw : Act (GreatDeluge G α) M α (Drawn V α))
      (fun drawn d _ => n.Draws drawn d.heuristic.notes)
      (fun d _ => ∃ ended, d.heuristic.notes = n.pick ended) := by
  unfold draw
  refine leads_solution_bind_any fun s => ?_
  refine leads_lift_bind (fun _ _ hd => ⟨n.ended, hd⟩) fun reference _ => ?_
  refine leads_part_bind_any fun before => ?_
  refine Leads.bind (((spares_onSchedule _).leads (·.notes = n)).mono_error
    fun _ _ hd => ⟨n.ended, hd⟩) fun raised => leads_part_bind_any fun d => ?_
  dsimp only
  split
  · refine Leads.bind (Q := fun _ d _ => d.heuristic.notes = n) (leads_change fun _ _ h => h)
      fun _ => leads_pure fun _ _ hd => ?_
    rw [hd]
    exact .yield
  -- the flags and the level may be set before the draw
  refine leads_when (leads_change fun _ _ h => h) fun _ => ?_
  refine leads_when (leads_change fun _ _ h => h) fun _ => ?_
  refine leads_draw_mark (fun _ _ => rfl) hn ?_ rfl fun _ _ => rfl
  exact fun _ => rfl

theorem takesTurns :
    Strategy.TakesTurns (·.heuristic) (Act.candidate? (draw (G := G) (M := M) (V := V)))
      attempt := by
  intro s hn
  let n := s.1.heuristic.notes
  unfold attempt
  refine ensures_draw_bind (draw_draws hn) rfl (fun i c s' hrun => ?_) fun d n' hdraws => ?_
  · unfold Act.candidate?
    rw [hrun]
  cases hdraws with
  | yield => exact leads_pure fun d _ hd => hd ▸ .yield
  | empty ended => exact leads_pure fun d _ hd => hd ▸ .empty ended
  | @candidate i ended hpicked c =>
    cases c with
    | lazy c =>
      exact leads_part_bind_any fun d => leads_pure fun d _ hd => hd ▸ .lazy hpicked c _
    | eager m =>
      refine leads_solution_bind_any fun s => ?_
      refine leads_lift_bind (fun _ _ hd => ⟨_, hd⟩) fun total _ => leads_part_bind_any fun d => ?_
      by_cases haccepts : d.schedule.accepts total m.delta = true
      · rw [if_pos haccepts]
        by_cases himproved : m.delta ≤ 0
        · rw [if_pos himproved]
          refine Leads.bind (Q := fun _ d _ => d.heuristic.notes = n.pick ended)
            (leads_change fun d _ hd => ?_) fun _ => ?_
          · split
            · exact hd
            · exact hd
          refine Leads.bind ?_ fun _ => offer_turn heuristic _ (fun _ _ => rfl) _ _
          exact improve_turn (fun _ _ => rfl) hn hpicked himproved
        · rw [if_neg himproved]
          refine Leads.bind ?_ fun _ => offer_turn heuristic _ (fun _ _ => rfl) _ _
          exact succeed_turn (fun _ _ => rfl) hpicked himproved
      · rw [if_neg haccepts]
        exact refuse_turn (fun _ _ => rfl) hpicked m

end GreatDeluge

namespace SimulatedAnnealing

variable [MoveGenerator G M V α] [Model M V α]

omit [Scalar α] [MoveGenerator G M V α] [Model M V α] in
theorem spares_onSchedule {β : Type} (x : Act (AnnealingSchedule α) M α β) :
    Spares heuristic (onSchedule x : Act (SimulatedAnnealing G α) M α β) := by
  refine spares_within ?_ x
  exact fun _ _ => rfl

omit [MoveGenerator G M V α] in
/-- Going back to the best state is nothing to the notes, either. -/
theorem draw_draws [MoveGenerator G M V α] {n : Notes α} (hn : n.Sound) :
    Leads (fun a _ => a.heuristic.notes = n) (draw : Act (SimulatedAnnealing G α) M α (Drawn V α))
      (fun drawn a _ => n.Draws drawn a.heuristic.notes)
      (fun a _ => ∃ ended, a.heuristic.notes = n.pick ended) := by
  unfold draw
  refine Leads.bind (((spares_onSchedule _).leads (·.notes = n)).mono_error
    fun _ _ ha => ⟨n.ended, ha⟩) fun turn => leads_part_bind_any fun a => ?_
  split
  · refine Leads.bind (Q := fun _ a _ => a.heuristic.notes = n) (leads_change fun _ _ h => h)
      fun _ => leads_pure fun _ _ ha => ?_
    rw [ha]
    exact .yield
  dsimp only
  refine leads_when (leads_change fun _ _ h => h) fun _ => ?_
  refine leads_draw_mark (fun _ _ => rfl) hn ?_ rfl fun _ _ => rfl
  exact fun _ => rfl

omit [Model M V α] [MoveGenerator G M V α] in
/-- A decision changes the schedule and the random stream only, and does not fail. -/
theorem accept_leads {n : Notes α} (total reference delta : α)
    {E : SimulatedAnnealing G α → Solution M α → Prop} :
    Leads (fun a _ => a.heuristic.notes = n)
      (accept total reference delta : Act (SimulatedAnnealing G α) M α Bool)
      (fun _ a _ => a.heuristic.notes = n) E := by
  unfold accept
  refine leads_get_bind fun a w ha => ?_
  refine Leads.bind (Q := fun _ a _ => a.heuristic.notes = n) (leads_set fun _ _ _ => ha)
    fun _ => leads_pure fun _ _ h => h

theorem takesTurns :
    Strategy.TakesTurns (·.heuristic) (Act.candidate? (draw (G := G) (M := M) (V := V)))
      attempt := by
  intro s hn
  let n := s.1.heuristic.notes
  unfold attempt
  refine ensures_draw_bind (draw_draws hn) rfl (fun i c s' hrun => ?_) fun d n' hdraws => ?_
  · unfold Act.candidate?
    rw [hrun]
  cases hdraws with
  | yield => exact leads_pure fun a _ ha => ha ▸ .yield
  | empty ended => exact leads_pure fun a _ ha => ha ▸ .empty ended
  | @candidate i ended hpicked c =>
    refine leads_solution_bind_any fun s => ?_
    refine leads_lift_bind (fun _ _ ha => ⟨_, ha⟩) fun reference _ => ?_
    cases c with
    | lazy c =>
      refine Leads.bind (Q := fun _ a _ => a.heuristic.notes = n.pick ended) ?_ fun seed => ?_
      · exact leads_onWorld fun a => Attempt.ensures_modifyGet fun _ h => h
      · exact leads_part_bind_any fun a => leads_pure fun a _ ha => ha ▸ .lazy hpicked c _
    | eager m =>
      refine leads_solution_bind_any fun s => ?_
      refine leads_lift_bind (fun _ _ ha => ⟨_, ha⟩) fun total _ => ?_
      refine Leads.bind (accept_leads total reference m.delta) fun accepted => ?_
      by_cases haccepts : accepted = true
      · rw [if_pos haccepts]
        by_cases himproved : m.delta ≤ 0
        · rw [if_pos himproved]
          refine Leads.bind ?_ fun _ => offer_turn heuristic _ (fun _ _ => rfl) _ _
          exact improve_turn (fun _ _ => rfl) hn hpicked himproved
        · rw [if_neg himproved]
          refine Leads.bind ?_ fun _ => offer_turn heuristic _ (fun _ _ => rfl) _ _
          exact succeed_turn (fun _ _ => rfl) hpicked himproved
      · rw [if_neg haccepts]
        exact refuse_turn (fun _ _ => rfl) hpicked m

end SimulatedAnnealing

/-! ## Calls -/

namespace Notes

/-- Sound notes in which nothing but the pick and the chain has changed. -/
structure Kept (n n' : Notes α) : Prop where
  sound : n'.Sound
  count_eq : n'.count = n.count
  config_eq : n'.config = n.config
  scores_eq : n'.scores = n.scores

variable {n n' n'' : Notes α} {d : Drawn V α} {candidate? : Option (Nat × Candidate V α)}
  {p? : Option (Proposal V α)}

omit [Scalar α] in
theorem Kept.trans (h : n.Kept n') (h' : n'.Kept n'') : n.Kept n'' :=
  ⟨h'.sound, h'.count_eq.trans h.count_eq, h'.config_eq.trans h.config_eq,
    h'.scores_eq.trans h.scores_eq⟩

/-- What a call does to the notes. A returned move is the candidate of a selector, and if it does not
make things worse, the selector is rewarded for it once. Nothing else changes the tables. -/
inductive Selects (n : Notes α) (candidate? : Option (Nat × Candidate V α)) :
    Option (Proposal V α) → Notes α → Prop
  | kept {p? : Option (Proposal V α)} {n' : Notes α} (hkept : n.Kept n')
    (hworse : ∀ m, p? = some (.move m) →
      ¬m.delta ≤ 0 ∧ ∃ i < n.count, candidate? = some (i, .eager m)) :
    n.Selects candidate? p? n'
  | improved {n' : Notes α} {i : Nat} {m : Move V α} (hkept : n.Kept n')
    (hpicked : n'.Picked i n'.ended) (hcandidate : candidate? = some (i, .eager m))
    (himproved : m.delta ≤ 0) (time : α) :
    n.Selects candidate? (some (.move m)) (n'.improve n'.config.learningMethod i m.delta time)

theorem Selects.sound (h : n.Selects candidate? p? n') : n'.Sound := by
  cases h with
  | kept hkept _ => exact hkept.sound
  | improved hkept hpicked _ _ time => exact hkept.sound.improve hpicked _ _ time

theorem Selects.count_eq (h : n.Selects candidate? p? n') : n'.count = n.count := by
  cases h with
  | kept hkept _ => exact hkept.count_eq
  | improved hkept _ _ _ _ => exact hkept.count_eq

theorem Selects.config_eq (h : n.Selects candidate? p? n') : n'.config = n.config := by
  cases h with
  | kept hkept _ => exact hkept.config_eq
  | improved hkept _ _ _ _ => exact hkept.config_eq

/-- An attempt without an answer leaves the tables alone. -/
theorem Turn.kept (h : n.Turn d none n') (hn : n.Sound) : n.Kept n' := by
  cases h with
  | empty ended => exact ⟨(hn.pick ended).fail, rfl, rfl, rfl⟩
  | @refused _ ended _ _ => exact ⟨(hn.pick ended).fail, rfl, rfl, rfl⟩

/-- An attempt with an answer ends the call. -/
theorem Turn.selects (hkept : n.Kept n') (h : n'.Turn d (some p?) n'')
    (hcandidate : ∀ i c, d = .candidate i c → candidate? = some (i, c)) :
    n.Selects candidate? p? n'' := by
  have hpick (ended : Bool) : n.Kept (n'.pick ended) :=
    ⟨hkept.sound.pick ended, hkept.count_eq, hkept.config_eq, hkept.scores_eq⟩
  cases h with
  | yield => exact .kept hkept nofun
  | @lazy _ ended _ c criterion => exact .kept (hpick ended) nofun
  | @worse i ended hpicked m hworse =>
    have hsucceed : n.Kept ((n'.pick ended).follow n'.chain.succeed) :=
      ⟨(hpick ended).sound.succeed, hkept.count_eq, hkept.config_eq, hkept.scores_eq⟩
    refine .kept hsucceed fun m' hm' => ?_
    cases hm'
    exact ⟨hworse, i, hkept.count_eq ▸ hpicked.lt_count, hcandidate _ _ rfl⟩
  | @improved i ended hpicked m himproved time =>
    have hpicked' : (n'.pick ended).Picked i (n'.pick ended).ended :=
      ⟨hpicked.lt_count, hpicked.notMem, hpicked.length_lt⟩
    exact .improved (hpick ended) hpicked' (hcandidate _ _ rfl) himproved time

end Notes

/-- A call is a number of attempts without an answer and at most one with an answer. -/
theorem Strategy.TakesTurns.firstOf_selects {view : S → Heuristic G α}
    {candidate? : S × World M α → Option (Nat × Candidate V α)}
    {attempt : Act S M α (Option (Option (Proposal V α)))}
    (h : Strategy.TakesTurns view candidate? attempt) {n : Notes α} (k : Nat) (s : S × World M α)
    (hs : n.Kept (view s.1).notes) :
    Attempt.Ensures (· = s) (Attempt.firstOf attempt k)
      (fun answer s' => n.Selects (Attempt.lookLast candidate? attempt k s) answer.join
        (view s'.1).notes)
      (fun s' => n.Kept (view s'.1).notes) := by
  have hattempt (s : S × World M α) (hs : n.Kept (view s.1).notes) :
      Attempt.Ensures (· = s) attempt
        (fun answer s' => answer.elim (n.Kept (view s'.1).notes)
          (n.Selects (candidate? s) · (view s'.1).notes))
        (fun s' => n.Kept (view s'.1).notes) := by
    refine (h s hs.sound).mono (fun _ h => h) (fun answer s' hturn => ?_) fun s' hpick => ?_
    · obtain ⟨d, hcandidate, hturn⟩ := hturn
      cases answer with
      | none => exact hs.trans (hturn.kept hs.sound)
      | some p? => exact hturn.selects hs hcandidate
    · obtain ⟨ended, hnotes⟩ := hpick
      rw [hnotes]
      exact ⟨hs.sound.pick ended, hs.count_eq, hs.config_eq, hs.scores_eq⟩
  refine (Attempt.ensures_firstOf_lookLast candidate? (P := fun s => n.Kept (view s.1).notes)
    (Q := fun candidate? p? s' => n.Selects candidate? p? (view s'.1).notes) hattempt k s
    hs).mono_post fun answer s' hend => ?_
  cases answer with
  | none => exact .kept hend nofun
  | some p? => exact hend

omit [Scalar α] in
/-- What the attempts of a call establish holds after the call. That there is no answer is reported
at most. -/
theorem Act.ensures_attempts_bind {attempt : Act S M α (Option (Option (Proposal V α)))} {k : Nat}
    {f : Option (Option (Proposal V α)) → Act S M α (Option (Proposal V α))}
    {fields : S → Unit → List (String × FieldValue α)} {P : S × World M α → Prop}
    {Q : Option (Proposal V α) → S → Prop} {E : S → Prop}
    (h : Attempt.Ensures P (Attempt.firstOf attempt k) (fun answer s => Q answer.join s.1)
      (fun s => E s.1))
    (hsome : ∀ p?, f (some p?) = pure p?)
    (hnone : f none = do
      let s ← part
      report .debug "idle" (fields s)
      return none) :
    Attempt.Ensures P (Attempt.firstOf attempt k >>= f) (fun p? s => Q p? s.1) (fun s => E s.1) := by
  refine Attempt.Ensures.bind h fun answer => ?_
  show Leads (fun t _ => Q answer.join t) (f answer) (fun p? t _ => Q p? t) (fun t _ => E t)
  cases answer with
  | some p? =>
    rw [hsome]
    exact leads_pure fun _ _ h => h
  | none =>
    rw [hnone]
    exact leads_part_bind_any fun _ => leads_report_bind fun _ => leads_pure fun _ _ h => h

section

variable [MoveGenerator G M V α]

/-- The candidate that a call of hill climbing draws last. -/
def HillClimbing.lastCandidate? (s : HillClimbing G α × World M α) :
    Option (Nat × Candidate V α) :=
  Attempt.lookLast candidate? (attempt (V := V)) (s.1.maxIdle + 1) s

theorem HillClimbing.select_selects (s : HillClimbing G α × World M α)
    (hn : s.1.heuristic.notes.Sound) :
    Attempt.Ensures (· = s) select
      (fun p? s' => s.1.heuristic.notes.Selects (V := V) (lastCandidate? s) p? s'.1.heuristic.notes)
      (fun s' => s.1.heuristic.notes.Kept s'.1.heuristic.notes) := by
  unfold select lastCandidate?
  refine ensures_whole_part_bind ?_
  refine Attempt.Ensures.bind (takesTurns.firstOf_selects _ s ⟨hn, rfl, rfl, rfl⟩) fun answer => ?_
  exact Attempt.ensures_pure fun _ h => h

variable [Model M V α]

/-- The candidate that a call of great deluge draws last. -/
def GreatDeluge.lastCandidate? (s : GreatDeluge G α × World M α) : Option (Nat × Candidate V α) :=
  Attempt.lookLast (Act.candidate? draw) (attempt (V := V)) maxAttempts s

theorem GreatDeluge.select_selects (s : GreatDeluge G α × World M α)
    (hn : s.1.heuristic.notes.Sound) :
    Attempt.Ensures (· = s) select
      (fun p? s' => s.1.heuristic.notes.Selects (V := V) (lastCandidate? s) p? s'.1.heuristic.notes)
      (fun s' => s.1.heuristic.notes.Kept s'.1.heuristic.notes) := by
  let n := s.1.heuristic.notes
  unfold select
  exact Act.ensures_attempts_bind
    (Q := fun p? (t : GreatDeluge G α) => n.Selects (lastCandidate? s) p? t.heuristic.notes)
    (E := fun t : GreatDeluge G α => n.Kept t.heuristic.notes)
    (takesTurns.firstOf_selects _ s ⟨hn, rfl, rfl, rfl⟩) (fun _ => rfl) rfl

/-- The candidate that a call of simulated annealing draws last. -/
def SimulatedAnnealing.lastCandidate? (s : SimulatedAnnealing G α × World M α) :
    Option (Nat × Candidate V α) :=
  Attempt.lookLast (Act.candidate? draw) (attempt (V := V)) maxAttempts s

theorem SimulatedAnnealing.select_selects (s : SimulatedAnnealing G α × World M α)
    (hn : s.1.heuristic.notes.Sound) :
    Attempt.Ensures (· = s) select
      (fun p? s' => s.1.heuristic.notes.Selects (V := V) (lastCandidate? s) p? s'.1.heuristic.notes)
      (fun s' => s.1.heuristic.notes.Kept s'.1.heuristic.notes) := by
  let n := s.1.heuristic.notes
  unfold select
  exact Act.ensures_attempts_bind
    (Q := fun p? (t : SimulatedAnnealing G α) => n.Selects (lastCandidate? s) p? t.heuristic.notes)
    (E := fun t : SimulatedAnnealing G α => n.Kept t.heuristic.notes)
    (takesTurns.firstOf_selects _ s ⟨hn, rfl, rfl, rfl⟩) (fun _ => rfl) rfl

end

end LocalSearch
