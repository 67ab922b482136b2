import LocalSearch.Model.Penalty
import LocalSearch.Proofs.Exact
import LocalSearch.Proofs.Selection.Ballots
import LocalSearch.Proofs.Selection.Chain
/-!
# Failures in a row

The failures that drop a chain are counted from the last success. Hill climbing, great deluge and
simulated annealing tell their chain of every accepted move, so the failures follow each other.
Group acceptance tells it of a move that does not make things worse, if there is no temperature, and
of no other move: there, moves that make things worse may be accepted between the failures.

* `Outcome`: what becomes of a candidate.
* `Chain.Records`: what an attempt does to a chain that is told of some outcomes.
* `Chain.Recalls`: the invariant. The failures that a chain counts are the last ones it was told of.
* `BasicStrategy.Logs`: a strategy in a search, with the outcomes so far.
* `BasicStrategy.streak_of_logs`: the outcomes before a chain is dropped.
-/

namespace LocalSearch

open Act

variable {S G M V α : Type}

/-! ## Outcomes -/

/-- What becomes of the candidate of an attempt. -/
inductive Outcome
  /-- There was no candidate, or it was refused. -/
  | failed
  /-- The candidate was accepted, and does not make things worse. -/
  | improved
  /-- The candidate was accepted, and makes things worse. -/
  | worsened
deriving Repr, DecidableEq

namespace Outcome

/-- The outcome of an accepted move. -/
def ofDelta [Scalar α] (delta : α) : Outcome :=
  if delta ≤ 0 then .improved else .worsened

/-- The outcome of an attempt with an answer. An offer of nothing is no outcome, nor is a lazy
change, which is decided on when it is made. -/
def ofAnswer [Scalar α] : Option (Option (Proposal V α)) → List Outcome
  | none => [failed]
  | some none => []
  | some (some (.move m)) => [ofDelta m.delta]
  | some (some (.lazy _ _)) => []

end Outcome

/-- The outcome of an attempt in a state, if it has one. -/
def Strategy.outcomes [Scalar α] (attempt : Act S M α (Option (Option (Proposal V α))))
    (s : S × World M α) : List Outcome :=
  match attempt s with
  | .ok answer _ => Outcome.ofAnswer answer
  | .error _ _ => []

namespace Attempt

variable {σ β ο : Type}

/-- What is seen in the states in which a loop of attempts starts an attempt, the last one first. -/
def trail (look : σ → List ο) (attempt : Attempt σ (Option β)) : Nat → σ → List ο
  | 0, _ => []
  | n + 1, s =>
    (match attempt s with
      | .ok none s' => trail look attempt n s'
      | _ => []) ++ look s

/-- If every attempt adds what is seen when it starts, a loop adds the trail. -/
theorem ensures_firstOf_trail {look : σ → List ο} {attempt : Attempt σ (Option β)}
    {P : List ο → σ → Prop}
    (h : ∀ log s, P log s → Ensures (· = s) attempt (fun _ => P (look s ++ log))
      (P (look s ++ log))) (n : Nat) (log : List ο) (s : σ) (hs : P log s) :
    Ensures (· = s) (firstOf attempt n) (fun _ => P (trail look attempt n s ++ log))
      (P (trail look attempt n s ++ log)) := by
  induction n generalizing log s with
  | zero => exact ensures_pure fun s' hs' => hs' ▸ hs
  | succ n ih =>
    unfold firstOf
    apply ensures_bind_at
    · intro answer s' hrun
      have hnext : P (look s ++ log) s' := (h log s hs).of_ok rfl hrun
      cases answer with
      | none =>
        have htrail : trail look attempt (n + 1) s ++ log =
            trail look attempt n s' ++ (look s ++ log) := by
          simp only [trail, hrun, List.append_assoc]
        rw [htrail]
        exact ih (look s ++ log) s' hnext
      | some answer =>
        have htrail : trail look attempt (n + 1) s ++ log = look s ++ log := by
          simp only [trail, hrun, List.nil_append]
        rw [htrail]
        exact ensures_pure fun t ht => ht ▸ hnext
    · intro e s' hrun
      have htrail : trail look attempt (n + 1) s ++ log = look s ++ log := by
        simp only [trail, hrun, List.nil_append]
      rw [htrail]
      exact (h log s hs).of_error rfl hrun

end Attempt

/-- If the first items pass a test, they are the first ones that do. -/
theorem take_filter_of_forall {β : Type} {p : β → Bool} {xs : List β} {n : Nat}
    (h : ∀ x ∈ xs.take n, p x = true) : (xs.filter p).take n = xs.take n := by
  induction n generalizing xs with
  | zero => rfl
  | succ n ih =>
    cases xs with
    | nil => rfl
    | cons x xs =>
      rw [List.take_succ_cons, List.forall_mem_cons] at h
      rw [List.filter_cons_of_pos h.1, List.take_succ_cons, List.take_succ_cons, ih h.2]

/-! ## Chains -/

namespace Chain

variable {told : Outcome → Bool} {c c' : Chain} {interval : Nat} {log : List Outcome}

/-- What a step with given outcomes does to a chain that is told of some kinds of them. -/
inductive Records (told : Outcome → Bool) (c : Chain) : List Outcome → Chain → Prop
  | nothing : Records told c [] c
  | cleared : Records told c [] c.clear
  | untold {o : Outcome} (htold : told o = false) : Records told c [o] c
  | failed (htold : told .failed = true) : Records told c [.failed] c.fail
  | improved (htold : told .improved = true) (i : Nat) (ended : Bool) :
    Records told c [.improved] (c.extend i ended)
  | worsened : Records told c [.worsened] c.succeed

/-- The failures that a chain counts are the last outcomes it was told of. A chain that is not told
of improvements stays empty. -/
structure Recalls (interval : Nat) (told : Outcome → Bool) (log : List Outcome) (c : Chain) :
    Prop where
  interval_eq : c.resetInterval = interval
  streak : (log.filter told).take c.failures = List.replicate c.failures .failed
  empty : told .improved = false → c.selectors = []

theorem recalls_of (config : SequenceConfig) :
    Recalls config.resetInterval told [] (of config.resetInterval) := by
  have hpos : 1 ≤ config.resetInterval :=
    Int.le_toNat (by omega) |>.2 (Int.le_max_right config.maxResetIterations 1)
  exact ⟨Nat.max_eq_left hpos, rfl, fun _ => rfl⟩

theorem Recalls.clear (h : c.Recalls interval told log) (log' : List Outcome) :
    c.clear.Recalls interval told log' :=
  ⟨h.interval_eq, rfl, fun _ => rfl⟩

/-- One failure more. -/
theorem Recalls.streak_fail (h : c.Recalls interval told log) (htold : told .failed = true) :
    ((.failed :: log).filter told).take (c.failures + 1) =
      List.replicate (c.failures + 1) .failed := by
  rw [List.filter_cons_of_pos htold, List.take_succ_cons, h.streak, List.replicate_succ]

/-- What a step preserves. -/
theorem Recalls.records {outcomes : List Outcome} (h : c.Recalls interval told log)
    (hrecords : c.Records told outcomes c') : c'.Recalls interval told (outcomes ++ log) := by
  cases hrecords with
  | nothing => exact h
  | cleared => exact h.clear log
  | @untold o htold =>
    refine ⟨h.interval_eq, ?_, h.empty⟩
    rw [List.singleton_append, List.filter_cons_of_neg (by simp [htold])]
    exact h.streak
  | failed htold =>
    unfold fail
    split
    · exact h.clear _
    · exact ⟨h.interval_eq, h.streak_fail htold, h.empty⟩
  | improved htold i ended =>
    refine ⟨h.interval_eq, rfl, fun hnot => ?_⟩
    rw [htold] at hnot
    cases hnot
  | worsened => exact ⟨h.interval_eq, rfl, h.empty⟩

/-- A failure drops a chain only after as many failures as there may be. -/
theorem Recalls.of_dropped (h : c.Recalls interval told log)
    (hrecords : c.Records told [.failed] c') (hchain : c.selectors ≠ [])
    (hdropped : c'.selectors = []) :
    told .improved = true ∧
      ((.failed :: log).filter told).take interval = List.replicate interval .failed := by
  refine ⟨?_, ?_⟩
  · by_contra hnot
    exact hchain (h.empty (by simpa using hnot))
  cases hrecords with
  | untold htold => exact absurd hdropped hchain
  | failed htold =>
    have hfull : interval ≤ c.failures + 1 := by
      by_contra hroom
      unfold fail at hdropped
      rw [h.interval_eq, if_neg hroom] at hdropped
      exact hchain hdropped
    calc ((.failed :: log).filter told).take interval
        = (((.failed :: log).filter told).take (c.failures + 1)).take interval := by
          rw [List.take_take, Nat.min_eq_left hfull]
      _ = (List.replicate (c.failures + 1) Outcome.failed).take interval := by
          rw [h.streak_fail htold]
      _ = List.replicate interval .failed := by
          rw [List.take_replicate, Nat.min_eq_left hfull]

end Chain

/-! ## Attempts without a vote -/

section

variable [Scalar α]

/-- The chain after a draw. -/
def Drawn.leaves (c : Chain) : Drawn V α → Chain
  | .yield => c
  | .empty => c.fail
  | .candidate _ _ => c

omit [Scalar α] in
theorem Notes.Draws.chain_eq {n n' : Notes α} {d : Drawn V α} (h : n.Draws d n') :
    n'.chain = d.leaves n.chain := by
  cases h <;> rfl

/-- A turn tells the chain of every outcome. -/
theorem Notes.Turn.records {n n' : Notes α} {d : Drawn V α}
    {answer : Option (Option (Proposal V α))} (h : n.Turn d answer n') :
    n.chain.Records (fun _ => true) (Outcome.ofAnswer answer) n'.chain := by
  cases h with
  | yield => exact .nothing
  | empty _ => exact .failed rfl
  | lazy _ _ _ => exact .nothing
  | refused _ _ => exact .failed rfl
  | worse _ m hworse =>
    show Chain.Records _ _ [Outcome.ofDelta m.delta] _
    rw [Outcome.ofDelta, if_neg hworse]
    exact .worsened
  | improved _ m himproved _ =>
    show Chain.Records _ _ [Outcome.ofDelta m.delta] _
    rw [Outcome.ofDelta, if_pos himproved]
    exact .improved rfl _ _

/-- The heuristic of a strategy: its notes are fit, and its chain recalls the outcomes so far. -/
structure Heuristic.Recalls (k : Nat) (config : SequenceConfig) (told : Outcome → Bool)
    (log : List Outcome) (h : Heuristic G α) : Prop where
  fit : h.notes.Fit k config
  chain : h.chain.Recalls config.resetInterval told log

variable {k : Nat} {config : SequenceConfig} {view : S → Heuristic G α}
  {candidate? : S × World M α → Option (Nat × Candidate V α)}
  {attempt : Act S M α (Option (Option (Proposal V α)))}

/-- What an attempt does to the chain. One that fails has no outcome. -/
theorem Strategy.TakesTurns.attempt_records (h : Strategy.TakesTurns view candidate? attempt)
    (s : S × World M α) (hs : (view s.1).notes.Sound) :
    Attempt.Ensures (· = s) attempt
      (fun _ s' => (view s.1).chain.Records (fun _ => true) (outcomes attempt s) (view s'.1).chain)
      (fun s' => (view s.1).chain.Records (fun _ => true) (outcomes attempt s) (view s'.1).chain) := by
  refine Attempt.ensures_of (fun t answer s' ht hrun => ?_) fun t e s' ht hrun => ?_
  · subst ht
    obtain ⟨d, -, hturn⟩ := (h t hs).of_ok rfl hrun
    have houtcomes : outcomes attempt t = Outcome.ofAnswer answer := by
      unfold outcomes
      rw [hrun]
    rw [houtcomes]
    exact hturn.records
  · subst ht
    obtain ⟨ended, hnotes⟩ := (h t hs).of_error rfl hrun
    have hchain : (view s'.1).chain = (view t.1).chain := congrArg Notes.chain hnotes
    have houtcomes : outcomes attempt t = [] := by
      unfold outcomes
      rw [hrun]
    rw [houtcomes, hchain]
    exact .nothing

/-- What an attempt preserves. -/
theorem Strategy.TakesTurns.attempt_recalls (h : Strategy.TakesTurns view candidate? attempt)
    (log : List Outcome) (s : S × World M α)
    (hs : (view s.1).Recalls k config (fun _ => true) log) :
    Attempt.Ensures (· = s) attempt
      (fun _ s' => (view s'.1).Recalls k config (fun _ => true) (outcomes attempt s ++ log))
      (fun s' => (view s'.1).Recalls k config (fun _ => true) (outcomes attempt s ++ log)) := by
  have hrecords := h.attempt_records s hs.fit.sound
  have hfit := (h.leads_fit k config).run (t := s) hs.fit
  exact (hrecords.and hfit).mono (fun _ h => h)
    (fun _ _ hnext => ⟨hnext.2, hs.chain.records hnext.1⟩)
    fun _ hnext => ⟨hnext.2, hs.chain.records hnext.1⟩

/-- A failure that drops the chain. -/
theorem Strategy.TakesTurns.of_dropped (h : Strategy.TakesTurns view candidate? attempt)
    {log : List Outcome} {s : S × World M α} (hs : (view s.1).Recalls k config (fun _ => true) log)
    (hfailed : outcomes attempt s = [.failed]) (hchain : (view s.1).chain.selectors ≠ [])
    (hdropped : (view (attempt.after s).1).chain.selectors = []) :
    ((.failed :: log).filter fun _ => true).take config.resetInterval =
      List.replicate config.resetInterval .failed := by
  have hrecords := (h.attempt_records s hs.fit.sound).after rfl
  exact (hs.chain.of_dropped (hfailed ▸ hrecords) hchain hdropped).2

/-- A loop of attempts tells the chain of all their outcomes. -/
theorem Strategy.TakesTurns.firstOf_recalls (h : Strategy.TakesTurns view candidate? attempt)
    (n : Nat) (log : List Outcome) (s : S × World M α)
    (hs : (view s.1).Recalls k config (fun _ => true) log) :
    Attempt.Ensures (· = s) (Attempt.firstOf attempt n)
      (fun _ s' => (view s'.1).Recalls k config (fun _ => true)
        (Attempt.trail (outcomes attempt) attempt n s ++ log))
      (fun s' => (view s'.1).Recalls k config (fun _ => true)
        (Attempt.trail (outcomes attempt) attempt n s ++ log)) :=
  Attempt.ensures_firstOf_trail
    (P := fun log s => (view s.1).Recalls k config (fun _ => true) log) h.attempt_recalls n log s hs

end

section

variable [Scalar α] [MoveGenerator G M V α] {k : Nat} {config : SequenceConfig}
  (log : List Outcome)

theorem HillClimbing.select_recalls (s : HillClimbing G α × World M α)
    (hs : s.1.heuristic.Recalls k config (fun _ => true) log) :
    let log' := Attempt.trail (Strategy.outcomes attempt) attempt (s.1.maxIdle + 1) s ++ log
    Attempt.Ensures (· = s) select
      (fun _ s' => s'.1.heuristic.Recalls k config (fun _ => true) log')
      (fun s' => s'.1.heuristic.Recalls k config (fun _ => true) log') := by
  unfold select
  refine ensures_whole_part_bind ?_
  refine Attempt.Ensures.bind (takesTurns.firstOf_recalls _ log s hs) fun answer => ?_
  exact Attempt.ensures_pure fun _ h => h

variable [Model M V α]

theorem GreatDeluge.select_recalls (s : GreatDeluge G α × World M α)
    (hs : s.1.heuristic.Recalls k config (fun _ => true) log) :
    let log' := Attempt.trail (Strategy.outcomes attempt) attempt maxAttempts s ++ log
    Attempt.Ensures (· = s) select
      (fun _ s' => s'.1.heuristic.Recalls k config (fun _ => true) log')
      (fun s' => s'.1.heuristic.Recalls k config (fun _ => true) log') := by
  intro log'
  unfold select
  exact ensures_attempts_bind
    (Q := fun _ (t : GreatDeluge G α) => t.heuristic.Recalls k config (fun _ => true) log')
    (E := fun t : GreatDeluge G α => t.heuristic.Recalls k config (fun _ => true) log')
    (takesTurns.firstOf_recalls _ log s hs) (fun _ => rfl) rfl

theorem SimulatedAnnealing.select_recalls (s : SimulatedAnnealing G α × World M α)
    (hs : s.1.heuristic.Recalls k config (fun _ => true) log) :
    let log' := Attempt.trail (Strategy.outcomes attempt) attempt maxAttempts s ++ log
    Attempt.Ensures (· = s) select
      (fun _ s' => s'.1.heuristic.Recalls k config (fun _ => true) log')
      (fun s' => s'.1.heuristic.Recalls k config (fun _ => true) log') := by
  intro log'
  unfold select
  exact ensures_attempts_bind
    (Q := fun _ (t : SimulatedAnnealing G α) => t.heuristic.Recalls k config (fun _ => true) log')
    (E := fun t : SimulatedAnnealing G α => t.heuristic.Recalls k config (fun _ => true) log')
    (takesTurns.firstOf_recalls _ log s hs) (fun _ => rfl) rfl

end

/-! ## Preparing for a search -/

section

variable [Scalar α] [MoveGenerator G M V α] {k : Nat} {config : SequenceConfig}
  {told : Outcome → Bool} {log : List Outcome}

omit [Scalar α] [MoveGenerator G M V α] in
theorem Heuristic.Recalls.clear {h : Heuristic G α} (hh : h.Recalls k config told log) :
    h.clear.Recalls k config told log :=
  ⟨⟨hh.fit.sound.clear, hh.fit.count_eq, hh.fit.config_eq⟩, hh.chain.clear log⟩

omit [Scalar α] [MoveGenerator G M V α] in
/-- Whoever learns into the tables, the chain is left alone. -/
theorem Heuristic.Recalls.learn {h : Heuristic G α} (hh : h.Recalls k config told log)
    {scores : Scores α} (hscores : scores.Covers k) :
    Heuristic.Recalls k config told log { h with sequence.scores := scores } :=
  ⟨⟨hh.fit.sound.learn (hh.fit.count_eq ▸ hscores), hh.fit.count_eq, hh.fit.config_eq⟩, hh.chain⟩

omit [MoveGenerator G M V α] in
theorem Heuristic.Recalls.resetScores {h : Heuristic G α} (hh : h.Recalls k config told log) :
    h.resetScores.Recalls k config told log :=
  ⟨⟨hh.fit.sound.reset, hh.fit.count_eq, hh.fit.config_eq⟩, hh.chain⟩

omit [Scalar α] [MoveGenerator G M V α] in
theorem Heuristic.Recalls.of_notes_eq {h h' : Heuristic G α} (hh : h.Recalls k config told log)
    (hnotes : h'.notes = h.notes) : h'.Recalls k config told log := by
  have hchain : h'.chain = h.chain := congrArg Notes.chain hnotes
  exact ⟨hnotes ▸ hh.fit, hchain ▸ hh.chain⟩

/-- Preparing the selectors is nothing to the chain. -/
theorem Heuristic.prepare_recalls (model : M) :
    Attempt.Ensures (fun h : Heuristic G α => h.Recalls k config told log)
      (Attempt.focus (·.sequence) (fun h sequence => { h with sequence })
        (Sequence.init model : Attempt (Sequence G α) Unit))
      (fun _ h => h.Recalls k config told log) (fun h => h.Recalls k config told log) := by
  refine Attempt.ensures_of_at fun h hh => ?_
  have hchain :
      Attempt.Ensures (· = h) (Attempt.focus (·.sequence) (fun h sequence => { h with sequence })
          (Sequence.init model : Attempt (Sequence G α) Unit))
        (fun _ h' => h'.chain = h.chain) (fun h' => h'.chain = h.chain) := by
    refine Attempt.ensures_focus fun t ht => ?_
    subst ht
    exact Attempt.ensures_of (fun _ _ _ _ _ => rfl) fun _ _ _ _ _ => rfl
  refine ((Heuristic.prepare_ensures h model hh.fit.sound).and hchain).mono (fun _ h => h)
    (fun _ h' hh' => ?_) fun h' hh' => ?_
  · exact ⟨hh.fit.prepared hh'.1, hh'.2 ▸ hh.chain⟩
  · exact ⟨hh.fit.prepared hh'.1, hh'.2 ▸ hh.chain⟩

/-- The chain is cleared, unless a selector cannot be prepared. -/
theorem Heuristic.init_recalls (model : M) :
    Attempt.Ensures (fun h : Heuristic G α => h.Recalls k config told log) (Heuristic.init model)
      (fun _ h => h.Recalls k config told log) (fun h => h.Recalls k config told log) := by
  unfold Heuristic.init
  exact (Heuristic.prepare_recalls model).bind fun _ => Attempt.ensures_modify fun h hh => hh.clear

theorem HillClimbing.init_recalls :
    Leads (fun t _ => t.heuristic.Recalls k config told log) (init : Act (HillClimbing G α) M α Unit)
      (fun _ t _ => t.heuristic.Recalls k config told log)
      (fun t _ => t.heuristic.Recalls k config told log) := by
  unfold init
  refine leads_solution_bind_any fun s => ?_
  refine Leads.bind (Q := fun _ t _ => t.heuristic.Recalls k config told log) ?_ fun _ => ?_
  · refine leads_within fun t _ ht => Attempt.ensures_focus fun u hu => ?_
    exact (Heuristic.init_recalls s.model).mono_pre fun h hh => by rw [hh, hu.1]; exact ht
  · refine leads_change fun t _ ht => ht.of_notes_eq ?_
    unfold Heuristic.notes restartCount Sequence.setHillClimbing
    rw [List.length_map]

theorem GreatDeluge.init_recalls :
    Leads (fun t _ => t.heuristic.Recalls k config told log) (init : Act (GreatDeluge G α) M α Unit)
      (fun _ t _ => t.heuristic.Recalls k config told log)
      (fun t _ => t.heuristic.Recalls k config told log) := by
  unfold init
  refine leads_solution_bind_any fun s => ?_
  refine Leads.bind (Q := fun _ t _ => t.heuristic.Recalls k config told log) ?_ fun _ =>
    leads_change fun _ _ h => h
  refine leads_within fun t _ ht => Attempt.ensures_focus fun u hu => ?_
  exact (Heuristic.init_recalls s.model).mono_pre fun h hh => by rw [hh, hu.1]; exact ht

theorem SimulatedAnnealing.init_recalls [Model M V α] :
    Leads (fun t _ => t.heuristic.Recalls k config told log)
      (init : Act (SimulatedAnnealing G α) M α Unit)
      (fun _ t _ => t.heuristic.Recalls k config told log)
      (fun t _ => t.heuristic.Recalls k config told log) := by
  unfold init
  refine leads_solution_bind_any fun s => ?_
  refine Leads.bind (Q := fun _ t _ => t.heuristic.Recalls k config told log) ?_ fun _ => ?_
  · refine leads_within fun t _ ht => Attempt.ensures_focus fun u hu => ?_
    exact (Heuristic.prepare_recalls s.model).mono_pre fun h hh => by rw [hh, hu.1]; exact ht
  refine leads_lift_bind (fun _ _ h => h) fun size _ => ?_
  refine Leads.bind ((spares_onSchedule _).leads fun h => h.Recalls k config told log) fun _ => ?_
  exact leads_change fun _ _ h => h.clear

end

/-! ## Attempts of group acceptance -/

namespace Group

/-- The outcomes that group acceptance tells its chain of. `alone` says that there is no
temperature beside the water level. -/
def told (alone : Bool) : Outcome → Bool
  | .failed => true
  | .improved => alone
  | .worsened => false

section

variable [Scalar α] [Model M V α] [MoveGenerator G M V α]

/-- The draw of an attempt and the decision on its candidate. -/
def trial (reference : α) : Act (Group G α) M α (List Outcome) := do
  match ← onHeuristic drawCandidate with
  | .yield => return []
  | .empty => return [.failed]
  | .candidate _ (.lazy _) => return []
  | .candidate index (.eager m) =>
    match ← decide index m.delta reference with
    | .accepted => return [.ofDelta m.delta]
    | .refused => return [.failed]
    | .dropped => return [.ofDelta m.delta]

/-- The outcome of an attempt in a state, if it has one. -/
def outcomes (reference : α) (s : Group G α × World M α) : List Outcome :=
  match trial reference s with
  | .ok outcomes _ => outcomes
  | .error _ _ => []

/-- The chain and whether there is no temperature. -/
def Stands (alone : Bool) (c : Chain) (g : Group G α) : Prop :=
  g.heuristic.chain = c ∧ g.annealing.isNone = alone

/-- The chain has been told of outcomes, as far as it is told of them. -/
def Recorded (alone : Bool) (c : Chain) (outcomes : List Outcome) (g : Group G α) : Prop :=
  ∃ c', c.Records (told alone) outcomes c' ∧ g.Stands alone c'

/-- What a decision on a move does to the chain. A refused move is yet to be told of. -/
def Decided (alone : Bool) (c : Chain) (delta : α) (refused : Prop) (g : Group G α) : Prop :=
  (refused → g.Stands alone c) ∧ (¬refused → g.Recorded alone c [.ofDelta delta])

variable {alone : Bool} {c : Chain} {reference : α} {s s₁ : Group G α × World M α}

section

variable {index : Nat} {m : Move V α} {e : Failure}

theorem outcomes_of_draw_error
    (hdraw : (onHeuristic drawCandidate : Act (Group G α) M α (Drawn V α)) s = .error e s₁) :
    outcomes reference s = [] := by
  unfold outcomes trial
  rw [Attempt.bind_of_error hdraw]

theorem outcomes_of_empty
    (hdraw : (onHeuristic drawCandidate : Act (Group G α) M α (Drawn V α)) s = .ok .empty s₁) :
    outcomes reference s = [.failed] := by
  unfold outcomes trial
  rw [Attempt.bind_of_ok hdraw]
  rfl

theorem outcomes_of_lazy {change : LazyChange V}
    (hdraw : (onHeuristic drawCandidate : Act (Group G α) M α (Drawn V α)) s =
      .ok (.candidate index (.lazy change)) s₁) : outcomes reference s = [] := by
  unfold outcomes trial
  rw [Attempt.bind_of_ok hdraw]
  rfl

variable (hdraw : (onHeuristic drawCandidate : Act (Group G α) M α (Drawn V α)) s =
  .ok (.candidate index (.eager m)) s₁) {s₂ : Group G α × World M α}

include hdraw

theorem outcomes_of_decision {decision : Decision}
    (hdecide : decide index m.delta reference s₁ = .ok decision s₂) :
    outcomes reference s = [if decision = .refused then .failed else .ofDelta m.delta] := by
  unfold outcomes trial
  rw [Attempt.bind_of_ok hdraw]
  dsimp only
  rw [Attempt.bind_of_ok hdecide]
  cases decision <;> rfl

theorem outcomes_of_decision_error
    (hdecide : decide index m.delta reference s₁ = .error e s₂) : outcomes reference s = [] := by
  unfold outcomes trial
  rw [Attempt.bind_of_ok hdraw]
  dsimp only
  rw [Attempt.bind_of_error hdecide]

end

omit [Model M V α] [MoveGenerator G M V α] in
theorem advanceDeluge_stands {E : Group G α → Solution M α → Prop} (reference : α) :
    Leads (fun g _ => g.Stands alone c) (advanceDeluge reference : Act (Group G α) M α Unit)
      (fun _ g _ => g.Stands alone c) E := by
  refine leads_of_at fun g s hg => ?_
  refine (advanceDeluge_leads reference g s).mono (fun _ _ h => h) (fun _ g' _ hg' => ?_)
    fun _ _ h => h.elim
  rw [hg'.1]
  exact hg

omit [MoveGenerator G M V α] in
/-- With a temperature the chain is told of no accepted move. -/
theorem decideByVote_decided (schedule : AnnealingSchedule α) (delta total reference : α) :
    Leads (fun g _ => g.Stands false c)
      (decideByVote schedule delta total reference : Act (Group G α) M α Decision)
      (fun decision g _ => g.Decided false c delta (decision = .refused))
      (fun g _ => g.Stands false c) := by
  have huntold (o : Outcome) (ho : told false o = false) : c.Records (told false) [o] c := .untold ho
  have haccepted {g : Group G α} {decision : Decision} (hg : g.Stands false c)
      (hdecision : decision ≠ .refused) : g.Decided false c delta (decision = .refused) := by
    refine ⟨fun h => absurd h hdecision, fun _ => ⟨c, huntold _ ?_, hg⟩⟩
    unfold Outcome.ofDelta
    split <;> rfl
  unfold decideByVote
  refine leads_get_bind fun g w hg => ?_
  dsimp only
  obtain ⟨judged, random⟩ := schedule.judge total reference delta w.random
  refine Leads.bind (Q := fun _ g _ => g.Stands false c) (leads_set fun _ _ _ => hg) fun _ => ?_
  split
  · exact leads_pure fun _ _ h => ⟨fun _ => h, fun hnot => absurd rfl hnot⟩
  refine Leads.bind (leads_within_of_kept fun _ _ h => ⟨h.1, rfl⟩) fun turn => ?_
  refine Leads.bind (advanceDeluge_stands reference) fun _ => ?_
  split
  · exact leads_pure fun _ _ h => haccepted h nofun
  · refine Leads.bind (Q := fun _ g _ => g.Stands false c) (leads_change fun g _ hg => ?_)
      fun _ => leads_pure fun _ _ h => haccepted h nofun
    exact ⟨hg.1, (Option.isNone_map ..).trans hg.2⟩

omit [MoveGenerator G M V α] [Model M V α] in
theorem chain_of_improve {h h' : Heuristic G α} {method : LearningMethod} {index : Nat}
    {delta time : α} (himprove : h.improve method index delta time = .ok h') :
    h'.chain = h.chain.extend index h.sequence.ended := by
  obtain ⟨sequence, -, hpure⟩ := bind_eq_ok_iff.1 himprove
  cases hpure
  rfl

omit [MoveGenerator G M V α] [Model M V α] in
/-- Without a temperature the chain is told of an accepted move that does not make things worse, and
not of one that does. -/
theorem decideByDeluge_decided (index : Nat) (delta total reference : α) :
    Leads (fun g _ => g.Stands true c)
      (decideByDeluge index delta total reference : Act (Group G α) M α Bool)
      (fun accepted g _ => g.Decided true c delta (accepted = false))
      (fun g _ => g.Stands true c) := by
  have hadvance {c' : Chain} (hrecords : c.Records (told true) [.ofDelta delta] c') :
      Leads (fun g _ => g.Stands true c')
        (advanceDeluge reference >>= fun _ => pure true : Act (Group G α) M α Bool)
        (fun accepted g _ => g.Decided true c delta (accepted = false))
        (fun g _ => g.Stands true c) :=
    Leads.bind (advanceDeluge_stands reference) fun _ => leads_pure fun _ _ h =>
      ⟨nofun, fun _ => ⟨c', hrecords, h⟩⟩
  unfold decideByDeluge
  refine leads_part_bind_any fun g => ?_
  split
  · exact leads_pure fun _ _ h => ⟨fun _ => h, fun hnot => absurd rfl hnot⟩
  by_cases himproved : delta ≤ 0
  · rw [if_pos himproved]
    refine leads_solution_bind_any fun s => leads_of_at fun g sol hg => ?_
    let extended := c.extend index g.heuristic.sequence.ended
    refine Leads.bind (Q := fun _ g' _ => g'.Stands true extended) ?_ fun _ => hadvance ?_
    · refine leads_within fun g' _ hat => Attempt.ensures_focus fun t ht => ?_
      rw [hat.1] at ht ⊢
      refine Attempt.ensures_update (fun h h' hh himprove => ⟨?_, hg.2⟩) fun h hh => ⟨?_, hg.2⟩
      · show h'.chain = extended
        rw [chain_of_improve himprove, hh, ht.1, hg.1]
      · show h.chain = c
        rw [hh, ht.1, hg.1]
    · rw [Outcome.ofDelta, if_pos himproved]
      exact .improved rfl _ _
  · rw [if_neg himproved]
    refine hadvance ?_
    rw [Outcome.ofDelta, if_neg himproved]
    exact .untold rfl

omit [MoveGenerator G M V α] in
theorem decide_decided (alone : Bool) (c : Chain) (index : Nat) (delta reference : α) :
    Leads (fun g _ => g.Stands alone c) (decide index delta reference : Act (Group G α) M α Decision)
      (fun decision g _ => g.Decided alone c delta (decision = .refused))
      (fun g _ => g.Stands alone c) := by
  unfold decide
  refine leads_solution_bind_any fun s => leads_lift_bind (fun _ _ h => h) fun total _ => ?_
  refine leads_part_bind fun g sol hg => ?_
  obtain ⟨hchain, rfl⟩ := hg
  cases hannealing : g.annealing with
  | some schedule =>
    exact (decideByVote_decided schedule delta total reference).at ⟨hchain, hannealing ▸ rfl⟩
  | none =>
    refine Leads.bind ((decideByDeluge_decided index delta total reference).at
      ⟨hchain, hannealing ▸ rfl⟩) fun accepted => leads_pure fun _ _ h => ?_
    cases accepted with
    | false => exact ⟨fun _ => h.1 rfl, fun hnot => absurd rfl hnot⟩
    | true => exact ⟨nofun, fun _ => h.2 nofun⟩

omit [Model M V α] in
/-- The draw of an attempt. -/
theorem drawCandidate_leaves (alone : Bool) {n : Notes α} (hn : n.Sound) :
    Leads (fun g _ => g.heuristic.notes = n ∧ g.annealing.isNone = alone)
      (onHeuristic drawCandidate : Act (Group G α) M α (Drawn V α))
      (fun d g _ => d ≠ .yield ∧ g.Stands alone (d.leaves n.chain))
      (fun g _ => g.Stands alone n.chain) := by
  have hdraw := leads_draw (G := G) (M := M) (V := V) Group.heuristic
    (fun g heuristic => { g with heuristic }) (fun _ _ => rfl) hn
  have hkept : Leads (fun g _ => g.annealing.isNone = alone)
      (onHeuristic drawCandidate : Act (Group G α) M α (Drawn V α))
      (fun _ g _ => g.annealing.isNone = alone) (fun g _ => g.annealing.isNone = alone) :=
    leads_within_of_kept fun _ _ h => h
  refine leads_of_at fun g sol hg => ?_
  refine ((hdraw.at hg.1).and (hkept.at hg.2)).mono (fun _ _ h => h) (fun d g' _ h => ?_)
    fun g' _ h => ?_
  · obtain ⟨⟨hdrawn, hdraws⟩, hannealing⟩ := h
    exact ⟨hdrawn, hdraws.chain_eq, hannealing⟩
  · obtain ⟨⟨ended, hnotes⟩, hannealing⟩ := h
    exact ⟨congrArg Notes.chain hnotes, hannealing⟩

variable (alone c) in
omit [Scalar α] [Model M V α] [MoveGenerator G M V α] in
/-- A refused move is told of as a failure. -/
theorem refuse_records :
    Leads (fun g _ => g.Stands alone c)
      (do
        onHeuristic (change Heuristic.fail)
        return none : Act (Group G α) M α (Option (Proposal V α)))
      (fun _ g _ => g.Recorded alone c [.failed]) (fun g _ => g.Recorded alone c [.failed]) := by
  refine Leads.bind (Q := fun _ g _ => g.Stands alone c.fail) ?_ fun _ =>
    leads_pure fun _ _ hg => ⟨_, .failed rfl, hg⟩
  refine leads_within fun g _ hg => leads_change fun h _ hat => ⟨?_, hg.2⟩
  rw [hat.1, ← hg.1]
  rfl

variable (alone c) in
omit [Scalar α] [Model M V α] [MoveGenerator G M V α] in
/-- That a move is accepted is reported, which the chain does not notice. -/
theorem accept_records (index : Nat) (m : Move V α) (outcomes : List Outcome) :
    Leads (fun g _ => g.Recorded alone c outcomes)
      (do
        onHeuristic (reportAccept "group" index m.delta fun _ => [])
        return some (.move m) : Act (Group G α) M α (Option (Proposal V α)))
      (fun _ g _ => g.Recorded alone c outcomes) (fun g _ => g.Recorded alone c outcomes) := by
  refine Leads.bind (Q := fun _ g _ => g.Recorded alone c outcomes) ?_ fun _ =>
    leads_pure fun _ _ h => h
  refine leads_within fun g sol hg => ?_
  refine (reportAccept_leads (P := At g.heuristic sol) _ _ _ _).mono_post ?_
  exact fun _ h _ hat => hat.1 ▸ hg

variable (alone c) in
omit [Scalar α] [Model M V α] [MoveGenerator G M V α] in
/-- A lazy change is offered without a word to the chain. -/
theorem offer_records (change : LazyChange V) (reference : α) :
    Leads (fun g _ => g.Stands alone c)
      (do return some (.lazy change (← criterion reference)) :
        Act (Group G α) M α (Option (Proposal V α)))
      (fun _ g _ => g.Recorded alone c []) (fun g _ => g.Recorded alone c []) := by
  unfold criterion
  refine Leads.bind (Q := fun _ g _ => g.Stands alone c) ?_ fun rule =>
    leads_pure fun _ _ hg => ⟨c, .nothing, hg⟩
  refine leads_get_bind fun g w hg => ?_
  exact Leads.bind (Q := fun _ g _ => g.Stands alone c) (leads_set fun _ _ _ => hg) fun _ =>
    leads_pure fun _ _ h => h

/-- What an attempt does to the chain. One that fails has no outcome. -/
theorem attempt_records (reference : α) (s : Group G α × World M α)
    (hsound : s.1.heuristic.notes.Sound) (hs : s.1.annealing.isNone = alone) :
    Attempt.Ensures (· = s) (attempt reference : Act (Group G α) M α (Option (Proposal V α)))
      (fun _ s' => s'.1.Recorded alone s.1.heuristic.chain (outcomes reference s))
      (fun s' => s'.1.Recorded alone s.1.heuristic.chain (outcomes reference s)) := by
  let c := s.1.heuristic.chain
  have hdraw := drawCandidate_leaves (G := G) (M := M) alone hsound
  unfold attempt
  refine Attempt.ensures_bind_at (fun d s₁ hrun => ?_) fun e s₁ hrun => ?_
  · obtain ⟨hdrawn, hstands⟩ := hdraw.of_ok ⟨rfl, hs⟩ hrun
    rcases d with _ | _ | ⟨index, m | change⟩
    · exact absurd rfl hdrawn
    · rw [outcomes_of_empty hrun]
      exact Attempt.ensures_pure fun s' hs' => ⟨c.fail, .failed rfl, hs' ▸ hstands⟩
    · have hdecide := decide_decided (G := G) (M := M) alone c index m.delta reference
      refine Attempt.ensures_bind_at (fun decision s₂ hrun₂ => ?_) fun e s₂ hrun₂ => ?_
      · have hdecided := hdecide.of_ok hstands hrun₂
        rw [outcomes_of_decision hrun hrun₂]
        cases decision with
        | dropped => exact Attempt.ensures_pure fun s' hs' => hs' ▸ hdecided.2 nofun
        | refused => exact (refuse_records alone c).run (hdecided.1 rfl)
        | accepted => exact (accept_records alone c index m _).run (hdecided.2 nofun)
      · rw [outcomes_of_decision_error hrun hrun₂]
        exact ⟨c, .nothing, hdecide.of_error hstands hrun₂⟩
    · rw [outcomes_of_lazy hrun]
      exact (offer_records alone c change reference).run hstands
  · rw [outcomes_of_draw_error hrun]
    exact ⟨c, .nothing, hdraw.of_error ⟨rfl, hs⟩ hrun⟩

variable (k : Nat) (config : SequenceConfig) in
/-- The heuristic recalls the outcomes it is told of, and there is a temperature or there is none. -/
structure Recalls (alone : Bool) (log : List Outcome) (g : Group G α) : Prop where
  heuristic : g.heuristic.Recalls k config (told alone) log
  annealing : g.annealing.isNone = alone

variable {k : Nat} {config : SequenceConfig}

/-- What an attempt preserves. -/
theorem attempt_recalls (reference : α) (log : List Outcome) (s : Group G α × World M α)
    (hs : s.1.Recalls k config alone log) :
    Attempt.Ensures (· = s) (attempt reference : Act (Group G α) M α (Option (Proposal V α)))
      (fun _ s' => s'.1.Recalls k config alone (outcomes reference s ++ log))
      (fun s' => s'.1.Recalls k config alone (outcomes reference s ++ log)) := by
  have hrecords := attempt_records reference s hs.heuristic.fit.sound hs.annealing
  have hfit := (attempt_fit (M := M) reference).run (t := s) hs.heuristic.fit
  have hrecalls {g : Group G α}
      (h : g.Recorded alone s.1.heuristic.chain (outcomes reference s) ∧ g.Fit k config) :
      g.Recalls k config alone (outcomes reference s ++ log) := by
    obtain ⟨⟨c, hrecords, hstands⟩, hfit⟩ := h
    exact ⟨⟨hfit, hstands.1 ▸ hs.heuristic.chain.records hrecords⟩, hstands.2⟩
  exact (hrecords.and hfit).mono (fun _ h => h) (fun _ _ h => hrecalls h) fun _ h => hrecalls h

omit [MoveGenerator G M V α] in
/-- What happens before the vote is nothing to the heuristic. -/
theorem opening_recalls {log : List Outcome} :
    Leads (fun g _ => g.Recalls k config alone log)
      (opening : Act (Group G α) M α (Proposal V α ⊕ α))
      (fun _ g _ => g.Recalls k config alone log) (fun g _ => g.Recalls k config alone log) := by
  have hadvance (reference : α) : Leads (fun g _ => g.Recalls k config alone log)
      (advanceDeluge reference : Act (Group G α) M α Unit)
      (fun _ g _ => g.Recalls k config alone log) (fun g _ => g.Recalls k config alone log) := by
    unfold advanceDeluge
    refine Leads.bind (leads_within_of_kept fun _ _ h => ?_) fun _ => leads_pure fun _ _ h => h
    exact ⟨h.heuristic, h.annealing⟩
  have hvote : Leads (fun g _ => g.Recalls k config alone log)
      (openVote >>= fun reference => pure (.inr reference) :
        Act (Group G α) M α (Proposal V α ⊕ α))
      (fun _ g _ => g.Recalls k config alone log) (fun g _ => g.Recalls k config alone log) := by
    unfold openVote
    refine Leads.bind (Q := fun _ g _ => g.Recalls k config alone log) ?_ fun reference =>
      leads_pure fun _ _ h => h
    refine leads_solution_bind_any fun s => leads_lift_bind (fun _ _ h => h) fun reference _ => ?_
    refine leads_part_bind_any fun g => ?_
    exact leads_when (hadvance reference) fun _ => leads_pure fun _ _ h => h
  unfold opening
  refine leads_part_bind_any fun g => ?_
  split
  · exact hvote
  refine Leads.bind (leads_within_of_kept fun _ _ h => ⟨h.heuristic, h.annealing⟩) fun p? => ?_
  cases p? with
  | some p => exact leads_pure fun _ _ h => h
  | none =>
    refine Leads.bind (Q := fun _ g _ => g.Recalls k config alone log)
      (leads_change fun _ _ h => ⟨h.heuristic, h.annealing⟩) fun _ => ?_
    exact leads_solution_bind_any fun s => leads_report_bind fun _ => hvote

theorem init_recalls {log : List Outcome} :
    Leads (fun g _ => g.Recalls k config alone log) (init : Act (Group G α) M α Unit)
      (fun _ g _ => g.Recalls k config alone log) (fun g _ => g.Recalls k config alone log) := by
  unfold init
  refine Leads.bind (leads_within_of_kept fun _ _ h => ⟨h.heuristic, h.annealing⟩) fun _ => ?_
  refine leads_solution_bind_any fun s => ?_
  refine Leads.bind (Q := fun _ g _ => g.Recalls k config alone log) ?_ fun _ => ?_
  · refine leads_within fun g _ hg => Attempt.ensures_focus fun u hu => ?_
    refine (Heuristic.init_recalls s.model).mono (fun h hh => ?_) (fun _ h hh => ⟨hh, hg.annealing⟩)
      fun h hh => ⟨hh, hg.annealing⟩
    rw [hh, hu.1]
    exact hg.heuristic
  refine Leads.bind (Q := fun _ g _ => g.Recalls k config alone log)
    (leads_change fun _ _ h => ⟨h.heuristic, h.annealing⟩) fun _ => ?_
  refine leads_part_bind fun g sol hg => ?_
  cases hannealing : g.annealing with
  | none => exact leads_pure fun g' _ hat => hat.1 ▸ hg
  | some schedule =>
    have halone : alone = false := hg.annealing.symm.trans (hannealing ▸ rfl)
    refine leads_lift_bind (fun g' _ hat => hat.1 ▸ hg) fun size _ => ?_
    have hstart : Leads (fun g _ => g.Recalls k config alone log)
        (onAnnealing schedule (AnnealingSchedule.start size) : Act (Group G α) M α Unit)
        (fun _ g _ => g.Recalls k config alone log) (fun g _ => g.Recalls k config alone log) :=
      leads_within_of_kept fun _ _ h => ⟨h.heuristic, halone.symm⟩
    exact hstart.at hg

/-- The outcomes of the attempts of a call. -/
def trail (s : Group G α × World M α) : List Outcome :=
  match opening s with
  | .ok (.inr reference) s' => Attempt.trail (outcomes reference) (attempt reference) maxAttempts s'
  | _ => []

/-- What a call preserves. -/
theorem select_recalls (log : List Outcome) (s : Group G α × World M α)
    (hs : s.1.Recalls k config alone log) :
    Attempt.Ensures (· = s) (select : Act (Group G α) M α (Option (Proposal V α)))
      (fun _ s' => s'.1.Recalls k config alone (trail s ++ log))
      (fun s' => s'.1.Recalls k config alone (trail s ++ log)) := by
  rw [select_eq]
  refine Attempt.ensures_bind_at (fun answer s' hopening => ?_) fun e s' hopening => ?_
  · have hnext := opening_recalls.of_ok hs hopening
    cases answer with
    | inl p =>
      have htrail : trail s = [] := by
        unfold trail
        rw [hopening]
      rw [htrail]
      exact Attempt.ensures_pure fun t ht => ht ▸ hnext
    | inr reference =>
      have htrail : trail s =
          Attempt.trail (outcomes reference) (attempt reference) maxAttempts s' := by
        unfold trail
        rw [hopening]
      rw [htrail]
      exact Attempt.ensures_firstOf_trail (P := fun log s => s.1.Recalls k config alone log)
        (attempt_recalls reference) maxAttempts log s' hnext
  · have htrail : trail s = [] := by
      unfold trail
      rw [hopening]
    rw [htrail]
    exact opening_recalls.of_error hs hopening

end

end Group

/-! ## All acceptance strategies -/

namespace BasicStrategy

/-- The outcomes that a strategy tells its chain of. -/
def told : BasicStrategy G α → Outcome → Bool
  | group g => Group.told g.annealing.isNone
  | _ => fun _ => true

/-- A strategy that does not tell its chain of accepted moves that make things worse, but of others.
-/
def Overlooks : BasicStrategy G α → Prop
  | group g => g.annealing = none
  | _ => False

variable [Scalar α] [Model M V α] [MoveGenerator G M V α]

/-- The outcomes of the attempts of a call, the last one first. -/
def trail : BasicStrategy G α → World M α → List Outcome
  | hillClimbing s, w =>
    Attempt.trail (Strategy.outcomes HillClimbing.attempt) HillClimbing.attempt (s.maxIdle + 1) (s, w)
  | greatDeluge s, w =>
    Attempt.trail (Strategy.outcomes GreatDeluge.attempt) GreatDeluge.attempt maxAttempts (s, w)
  | simulatedAnnealing s, w =>
    Attempt.trail (Strategy.outcomes SimulatedAnnealing.attempt) SimulatedAnnealing.attempt
      maxAttempts (s, w)
  | group s, w => Group.trail (s, w)
  | construction _, _ => []

variable (M) in
/-- One attempt of a call, in any world, with its outcome if it has one. It may also fail. -/
inductive Concludes : BasicStrategy G α → List Outcome → BasicStrategy G α → Prop
  | hillClimbing (s : HillClimbing G α) (w : World M α) :
    Concludes (.hillClimbing s) (Strategy.outcomes HillClimbing.attempt (s, w))
      (.hillClimbing (HillClimbing.attempt.after (s, w)).1)
  | greatDeluge (s : GreatDeluge G α) (w : World M α) :
    Concludes (.greatDeluge s) (Strategy.outcomes GreatDeluge.attempt (s, w))
      (.greatDeluge (GreatDeluge.attempt.after (s, w)).1)
  | simulatedAnnealing (s : SimulatedAnnealing G α) (w : World M α) :
    Concludes (.simulatedAnnealing s) (Strategy.outcomes SimulatedAnnealing.attempt (s, w))
      (.simulatedAnnealing (SimulatedAnnealing.attempt.after (s, w)).1)
  | group (s : Group G α) (w : World M α) (reference : α) :
    Concludes (.group s) (Group.outcomes reference (s, w))
      (.group ((Group.attempt reference).after (s, w)).1)

variable (M) in
/-- What may become of a strategy over `k` selectors without an attempt. A call of group acceptance
may also have come to its vote, and somebody else may learn into the tables. -/
inductive Rests (k : Nat) : BasicStrategy G α → BasicStrategy G α → Prop
  | init (t : BasicStrategy G α) (w : World M α) :
    Rests k t ((Strategy.init : Act (BasicStrategy G α) M α Unit).after (t, w)).1
  | opening (s : Group G α) (w : World M α) :
    Rests k (.group s) (.group (Group.opening.after (s, w)).1)
  | bestSaved (t : BasicStrategy G α) : Rests k t (Strategy.bestSaved M t)
  | resetScores (t : BasicStrategy G α) : Rests k t (Strategy.resetScores M t)
  | shared (t : BasicStrategy G α) {scores : Scores α} (hscores : scores.Covers k) :
    Rests k t (t.withTables scores)

variable (M) in
/-- A strategy over `k` selectors in a search, with the outcomes so far, the last one first. The
search may be in the middle of a call. -/
inductive Logs (k : Nat) (t : BasicStrategy G α) : List Outcome → BasicStrategy G α → Prop
  | new : Logs k t [] t
  | rest {log : List Outcome} {t' t'' : BasicStrategy G α} (h : Logs k t log t')
    (hrests : Rests M k t' t'') : Logs k t log t''
  | attempt {log outcomes : List Outcome} {t' t'' : BasicStrategy G α} (h : Logs k t log t')
    (hconcludes : Concludes M t' outcomes t'') : Logs k t (outcomes ++ log) t''
  | select {log : List Outcome} {t' : BasicStrategy G α} (h : Logs k t log t') (w : World M α) :
    Logs k t (t'.trail w ++ log)
      ((Strategy.select : Act (BasicStrategy G α) M α (Option (Proposal V α))).after (t', w)).1

/-- The heuristic recalls the outcomes it is told of. -/
def Recalls (k : Nat) (config : SequenceConfig) (log : List Outcome) : BasicStrategy G α → Prop
  | hillClimbing s => s.heuristic.Recalls k config (fun _ => true) log
  | greatDeluge s => s.heuristic.Recalls k config (fun _ => true) log
  | simulatedAnnealing s => s.heuristic.Recalls k config (fun _ => true) log
  | group s => ∃ alone, s.Recalls k config alone log
  | construction _ => False

variable {k : Nat} {config : SequenceConfig} {log : List Outcome} {t t' : BasicStrategy G α}

/-- What preparing for a search preserves. -/
theorem Recalls.init (ht : t.Recalls k config log) (w : World M α) :
    Recalls k config log ((Strategy.init : Act (BasicStrategy G α) M α Unit).after (t, w)).1 := by
  suffices h : Leads (fun t _ => t.Recalls k config log)
      (Strategy.init : Act (BasicStrategy G α) M α Unit) (fun _ t _ => t.Recalls k config log)
      (fun t _ => t.Recalls k config log) from h.after ht
  show Leads _ BasicStrategy.init _ _
  unfold BasicStrategy.init
  refine leads_part_bind fun t s ht => ?_
  cases t with
  | hillClimbing t => exact leads_inside (HillClimbing.init_recalls.at ht)
  | greatDeluge t => exact leads_inside (GreatDeluge.init_recalls.at ht)
  | simulatedAnnealing t => exact leads_inside (SimulatedAnnealing.init_recalls.at ht)
  | group t =>
    obtain ⟨alone, ht⟩ := ht
    exact leads_inside ((Group.init_recalls.mono (fun _ _ h => h) (fun _ _ _ h => ⟨alone, h⟩)
      fun _ _ h => ⟨alone, h⟩).at ht)
  | construction t => exact ht.elim

theorem Recalls.rests (ht : t.Recalls k config log) (hrests : Rests M k t t') :
    t'.Recalls k config log := by
  cases hrests with
  | init t w => exact ht.init w
  | opening s w =>
    obtain ⟨alone, ht⟩ := ht
    exact ⟨alone, Group.opening_recalls.after ht⟩
  | bestSaved t =>
    cases t with
    | hillClimbing s | greatDeluge s | simulatedAnnealing s => exact ht
    | group s =>
      obtain ⟨alone, ht⟩ := ht
      exact ⟨alone, ht.heuristic, (Option.isNone_map ..).trans ht.annealing⟩
    | construction s => exact ht
  | resetScores t =>
    cases t with
    | hillClimbing s | greatDeluge s | simulatedAnnealing s =>
      exact Heuristic.Recalls.resetScores ht
    | group s =>
      obtain ⟨alone, ht⟩ := ht
      exact ⟨alone, ht.heuristic.resetScores, ht.annealing⟩
    | construction s => exact ht
  | shared t hscores =>
    cases t with
    | hillClimbing s | greatDeluge s | simulatedAnnealing s =>
      exact Heuristic.Recalls.learn ht hscores
    | group s =>
      obtain ⟨alone, ht⟩ := ht
      exact ⟨alone, ht.heuristic.learn hscores, ht.annealing⟩
    | construction s => exact ht

/-- What an attempt preserves. -/
theorem Recalls.concludes {outcomes : List Outcome} (ht : t.Recalls k config log)
    (hconcludes : Concludes M t outcomes t') : t'.Recalls k config (outcomes ++ log) := by
  cases hconcludes with
  | hillClimbing s w => exact (HillClimbing.takesTurns.attempt_recalls log (s, w) ht).after rfl
  | greatDeluge s w => exact (GreatDeluge.takesTurns.attempt_recalls log (s, w) ht).after rfl
  | simulatedAnnealing s w =>
    exact (SimulatedAnnealing.takesTurns.attempt_recalls log (s, w) ht).after rfl
  | group s w reference =>
    obtain ⟨alone, ht⟩ := ht
    exact ⟨alone, (Group.attempt_recalls reference log (s, w) ht).after rfl⟩

/-- What a call preserves. -/
theorem Recalls.select (ht : t.Recalls k config log) (w : World M α) :
    Recalls k config (t.trail w ++ log)
      ((Strategy.select : Act (BasicStrategy G α) M α (Option (Proposal V α))).after (t, w)).1 := by
  suffices h : Attempt.Ensures (· = (t, w))
      (Strategy.select : Act (BasicStrategy G α) M α (Option (Proposal V α)))
      (fun _ s => s.1.Recalls k config (t.trail w ++ log))
      (fun s => s.1.Recalls k config (t.trail w ++ log)) from h.after rfl
  show Attempt.Ensures _ BasicStrategy.select _ _
  unfold BasicStrategy.select
  refine ensures_whole_part_bind ?_
  dsimp only
  cases t with
  | hillClimbing s =>
    refine Attempt.ensures_focus fun u hu => ?_
    subst hu
    exact HillClimbing.select_recalls log (s, w) ht
  | greatDeluge s =>
    refine Attempt.ensures_focus fun u hu => ?_
    subst hu
    exact GreatDeluge.select_recalls log (s, w) ht
  | simulatedAnnealing s =>
    refine Attempt.ensures_focus fun u hu => ?_
    subst hu
    exact SimulatedAnnealing.select_recalls log (s, w) ht
  | group s =>
    obtain ⟨alone, ht⟩ := ht
    refine Attempt.ensures_focus fun u hu => ?_
    subst hu
    exact (Group.select_recalls log (s, w) ht).mono (fun _ h => h) (fun _ _ h => ⟨alone, h⟩)
      fun _ h => ⟨alone, h⟩
  | construction s => exact ht.elim

theorem recalls_of_logs (hlogs : Logs M k t log t') (ht : t.Recalls k config []) :
    t'.Recalls k config log := by
  induction hlogs with
  | new => exact ht
  | rest _ hrests ih => exact ih.rests hrests
  | attempt _ hconcludes ih => exact ih.concludes hconcludes
  | select _ w ih => exact ih.select w

omit [Scalar α] [Model M V α] [MoveGenerator G M V α] in
theorem recalls_of_new {selectors : List (Selector G α)} {scores : Scores α}
    {sequence : Sequence G α}
    (hseq : Sequence.withScores selectors config scores = .ok sequence)
    (hscores : scores.Covers selectors.length) (hnew : t.New sequence) :
    t.Recalls selectors.length config [] := by
  obtain ⟨h, hh, hfit⟩ := fit_new hseq hscores hnew
  obtain ⟨-, rfl⟩ := Sequence.of_withScores_eq_ok hseq
  cases hnew with
  | hillClimbing _ | greatDeluge _ _ | simulatedAnnealing _ =>
    cases hh
    exact ⟨hfit, Chain.recalls_of config⟩
  | group _ _ annealing =>
    cases hh
    exact ⟨_, ⟨hfit, Chain.recalls_of config⟩, rfl⟩

/-- A failure that drops the chain comes after failures only, if moves are left out that the chain
is not told of. The chain is told of moves that do not make things worse. -/
theorem Recalls.of_dropped {outcomes : List Outcome} {h h' : Heuristic G α}
    (ht : t.Recalls k config log) (hconcludes : Concludes M t outcomes t')
    (hfailed : outcomes = [.failed]) (hh : t.heuristic? = some h) (hh' : t'.heuristic? = some h')
    (hchain : h.chain.selectors ≠ []) (hdropped : h'.chain.selectors = []) :
    t.told .improved = true ∧ ((.failed :: log).filter t.told).take config.resetInterval =
      List.replicate config.resetInterval .failed := by
  cases hconcludes with
  | hillClimbing s w =>
    cases hh
    cases hh'
    exact ⟨rfl, HillClimbing.takesTurns.of_dropped (s := (s, w)) ht hfailed hchain hdropped⟩
  | greatDeluge s w =>
    cases hh
    cases hh'
    exact ⟨rfl, GreatDeluge.takesTurns.of_dropped (s := (s, w)) ht hfailed hchain hdropped⟩
  | simulatedAnnealing s w =>
    cases hh
    cases hh'
    exact ⟨rfl, SimulatedAnnealing.takesTurns.of_dropped (s := (s, w)) ht hfailed hchain hdropped⟩
  | group s w reference =>
    cases hh
    cases hh'
    obtain ⟨alone, ht⟩ := ht
    obtain ⟨c, hrecords, hstands⟩ :=
      (Group.attempt_records reference (s, w) ht.heuristic.fit.sound ht.annealing).after rfl
    have htold : (group s).told = Group.told alone := congrArg Group.told ht.annealing
    rw [htold]
    exact ht.heuristic.chain.of_dropped (hfailed ▸ hrecords) hchain (hstands.1 ▸ hdropped)

omit [Scalar α] [Model M V α] [MoveGenerator G M V α] in
theorem told_of_overlooks (ht : t.Overlooks) (o : Outcome) : t.told o = decide (o ≠ .worsened) := by
  cases t with
  | group g =>
    have hannealing : g.annealing = none := ht
    show Group.told g.annealing.isNone o = _
    rw [hannealing]
    cases o <;> rfl
  | hillClimbing _ | greatDeluge _ | simulatedAnnealing _ | construction _ => exact ht.elim

omit [Scalar α] [Model M V α] [MoveGenerator G M V α] in
theorem told_of_not_overlooks (ht : ¬t.Overlooks) (himproved : t.told .improved = true)
    (o : Outcome) : t.told o = true := by
  cases t with
  | group g => exact absurd (Option.isNone_iff_eq_none.1 himproved) ht
  | hillClimbing _ | greatDeluge _ | simulatedAnnealing _ | construction _ => rfl

/-- The outcomes before a failure drops a chain, that failure included. As many of them as the
settings say are failures, if moves are left out that the chain is not told of. All of them are
failures exactly if group acceptance, without a temperature, has accepted no move among them that
makes things worse; the other strategies overlook no move. -/
theorem streak_of_logs {selectors : List (Selector G α)} {scores : Scores α}
    {sequence : Sequence G α} {t'' : BasicStrategy G α} {h h' : Heuristic G α}
    (hseq : Sequence.withScores selectors config scores = .ok sequence)
    (hscores : scores.Covers selectors.length) (hnew : t.New sequence)
    (hlogs : Logs M selectors.length t log t') (hconcludes : Concludes M t' [.failed] t'')
    (hh : t'.heuristic? = some h) (hh' : t''.heuristic? = some h') (hchain : h.chain.selectors ≠ [])
    (hdropped : h'.chain.selectors = []) :
    let interval := config.resetInterval
    ((.failed :: log).filter t'.told).take interval = List.replicate interval .failed ∧
      ((.failed :: log).take interval = List.replicate interval .failed ↔
        (t'.Overlooks → .worsened ∉ (.failed :: log).take interval)) := by
  intro interval
  have hrecalls := recalls_of_logs hlogs (recalls_of_new hseq hscores hnew)
  obtain ⟨himproved, hstreak⟩ := hrecalls.of_dropped hconcludes rfl hh hh' hchain hdropped
  refine ⟨hstreak, fun hfailures _ hworsened => ?_, fun hnone => ?_⟩
  · rw [hfailures] at hworsened
    cases List.eq_of_mem_replicate hworsened
  · have htold : ∀ o ∈ (.failed :: log).take interval, t'.told o = true := by
      intro o ho
      by_cases hoverlooks : t'.Overlooks
      · rw [told_of_overlooks hoverlooks]
        refine decide_eq_true fun hworsened => ?_
        exact hnone hoverlooks (hworsened ▸ ho)
      · exact told_of_not_overlooks hoverlooks himproved o
    rw [← hstreak, take_filter_of_forall htold]

end BasicStrategy

/-- One variable with two options, and so nothing to exchange. -/
def World.oneVariable (option : Nat) (seed : UInt64) : World (Penalty ℚ) ℚ :=
  .ofSolution (.ofModel ⟨[[0, 1]], [some option], none, 0⟩) (.standard seed) none

namespace Group

/-- Changes and exchanges. -/
def basinSelectors : List (Selector (Generator Empty ℚ) ℚ) :=
  [.of "change" (.basic (.change false)) 0, .of "swap" (.basic (.swap false)) 0]

/-- Two failures drop a chain. -/
def basinConfig : SequenceConfig :=
  { maxResetIterations := 2 }

def basinSequence : Sequence (Generator Empty ℚ) ℚ :=
  ⟨basinSelectors, .fresh 2, basinConfig, false⟩

/-- Group acceptance without a temperature. -/
def basin : Group (Generator Empty ℚ) ℚ :=
  .of (.of .standard) basinSequence (.of .standard false false) none

/-- The basin in a call, after attempts with the given options and seeds, the last one first. -/
def soaked : List (Nat × UInt64) → Group (Generator Empty ℚ) ℚ
  | [] => ((opening : Act _ (Penalty ℚ) ℚ _).after (basin, .oneVariable 1 0)).1
  | (option, seed) :: rest =>
    ((attempt 1 : Act _ (Penalty ℚ) ℚ _).after (soaked rest, .oneVariable option seed)).1

/-- The outcomes of these attempts. -/
def soakedLog : List (Nat × UInt64) → List Outcome
  | [] => []
  | (option, seed) :: rest => outcomes 1 (soaked rest, .oneVariable option seed) ++ soakedLog rest

theorem logs_soaked (attempts : List (Nat × UInt64)) :
    BasicStrategy.Logs (Penalty ℚ) 2 (.group basin) (soakedLog attempts)
      (.group (soaked attempts)) := by
  induction attempts with
  | nil => exact .rest .new (.opening basin _)
  | cons x rest ih => exact ih.attempt (.group (soaked rest) (.oneVariable x.1 x.2) 1)

theorem concludes_soaked {attempts : List (Nat × UInt64)} {option : Nat} {seed : UInt64}
    (hfailed : outcomes 1 (soaked attempts, .oneVariable option seed) = [.failed]) :
    BasicStrategy.Concludes (Penalty ℚ) (.group (soaked attempts)) [.failed]
      (.group (soaked ((option, seed) :: attempts))) :=
  hfailed ▸ .group (soaked attempts) (.oneVariable option seed) 1

/-- An improvement and two failures. -/
theorem streak_of_logs_basin :
    (soaked [(0, 4), (1, 5)]).heuristic.chain.selectors = [0] ∧
      (soaked [(0, 4), (0, 4), (1, 5)]).heuristic.chain.selectors = [] ∧
      (Outcome.failed :: soakedLog [(0, 4), (1, 5)]).take 2 = [.failed, .failed] := by
  have hlog : soakedLog [(0, 4), (1, 5)] = [.failed, .improved] := by decide +kernel
  have hchain : (soaked [(0, 4), (1, 5)]).heuristic.chain.selectors = [0] := by decide +kernel
  have hdropped : (soaked [(0, 4), (0, 4), (1, 5)]).heuristic.chain.selectors = [] := by
    decide +kernel
  have hfailed : outcomes 1 (soaked [(0, 4), (1, 5)], .oneVariable 0 4) = [.failed] := by
    decide +kernel
  have hsequence : Sequence.withScores basinSelectors basinConfig (.fresh 2) = .ok basinSequence :=
    rfl
  have hstreak := BasicStrategy.streak_of_logs hsequence (Scores.covers_fresh 2) (.group _ _ _)
    (logs_soaked _) (concludes_soaked hfailed) rfl rfl (hchain ▸ List.cons_ne_nil 0 []) hdropped
  refine ⟨hchain, hdropped, hstreak.2.2 fun _ => ?_⟩
  rw [hlog]
  decide

/-- An improvement, a failure, an accepted move that makes things worse, and a failure. -/
theorem not_streak_basin :
    ¬∀ (log : List Outcome) (t t' : BasicStrategy (Generator Empty ℚ) ℚ)
      (h h' : Heuristic (Generator Empty ℚ) ℚ),
      BasicStrategy.Logs (Penalty ℚ) 2 (.group basin) log t →
        BasicStrategy.Concludes (Penalty ℚ) t [.failed] t' →
          t.heuristic? = some h → t'.heuristic? = some h' → h.chain.selectors ≠ [] →
            h'.chain.selectors = [] →
              (.failed :: log).take basinConfig.resetInterval =
                List.replicate basinConfig.resetInterval .failed := by
  intro hclaim
  have hlog : soakedLog [(0, 5), (0, 4), (1, 5)] = [.worsened, .failed, .improved] := by
    decide +kernel
  have hchain : (soaked [(0, 5), (0, 4), (1, 5)]).heuristic.chain.selectors = [0] := by
    decide +kernel
  have hdropped : (soaked [(1, 4), (0, 5), (0, 4), (1, 5)]).heuristic.chain.selectors = [] := by
    decide +kernel
  have hfailed : outcomes 1 (soaked [(0, 5), (0, 4), (1, 5)], .oneVariable 1 4) = [.failed] := by
    decide +kernel
  have hstreak := hclaim _ _ _ _ _ (logs_soaked _) (concludes_soaked hfailed) rfl rfl
    (hchain ▸ List.cons_ne_nil 0 []) hdropped
  rw [hlog] at hstreak
  exact absurd hstreak (by decide)

end Group

end LocalSearch
