import Mathlib
import LocalSearch.Proofs.Selection.Chain
import LocalSearch.Proofs.Sequence.Ledger
/-!
# What a strategy learns

Hill climbing, great deluge and simulated annealing reward the selector of every move that they hand
out and that does not make things worse, once and for nothing else. So in exact arithmetic the tables
add up to what the moves of each selector have earned since the tables were set back.

* `BasicStrategy.Learns`: strategies that learn by the rule of their settings.
* `BasicStrategy.earned`: what is earned by a call. The selector of a move is the one that drew the
  last candidate of the call.
* `BasicStrategy.Runs`: the calls of a strategy, with what was earned since the tables were set back.
* `BasicStrategy.balanced_of_runs`: the tables add up to that.
-/

namespace LocalSearch

open Act

variable {G M V α : Type} [Scalar α]

/-- The effect of a proposed move that does not make things worse, with its selector. -/
def effectOf (p? : Option (Proposal V α)) (candidate? : Option (Nat × Candidate V α)) :
    List (Nat × α) :=
  match p?, candidate? with
  | some (.move m), some (i, _) => if m.delta ≤ 0 then [(i, m.delta)] else []
  | _, _ => []

namespace BasicStrategy

omit [Scalar α] in
/-- Construction has nothing to learn, and group acceptance has a rule of its own. -/
def Learns : BasicStrategy G α → Prop
  | hillClimbing _ => True
  | greatDeluge _ => True
  | simulatedAnnealing _ => True
  | group _ => False
  | construction _ => False

variable [Model M V α] [MoveGenerator G M V α]

/-- The candidate that a call draws last, with the selector that proposed it. -/
def lastCandidate? (t : BasicStrategy G α) (w : World M α) : Option (Nat × Candidate V α) :=
  match t with
  | hillClimbing s => HillClimbing.lastCandidate? (s, w)
  | greatDeluge s => GreatDeluge.lastCandidate? (s, w)
  | simulatedAnnealing s => SimulatedAnnealing.lastCandidate? (s, w)
  | group _ => none
  | construction _ => none

/-- The effect of the move that a call hands out, if there is one that does not make things worse,
with the selector of the move. -/
def earned (t : BasicStrategy G α) (w : World M α) : List (Nat × α) :=
  match (Strategy.select : Act (BasicStrategy G α) M α (Option (Proposal V α))) (t, w) with
  | .ok p? _ => effectOf p? (t.lastCandidate? w)
  | .error _ _ => []

omit [Model M V α] in
/-- Whether all selectors of a strategy can be prepared. -/
def ready (t : BasicStrategy G α) (w : World M α) : Bool :=
  match t.heuristic? with
  | some h => h.sequence.ready w.solution.model
  | none => true

variable (M) in
/-- What may become of a strategy, with the moves that have earned something since its tables were
set back, which is done by the next search once all selectors are ready. Calls may also fail. -/
inductive Runs (t : BasicStrategy G α) : List (Nat × α) → BasicStrategy G α → Prop
  | new : Runs t [] t
  | init {moves : List (Nat × α)} {t' : BasicStrategy G α} (h : Runs t moves t') (w : World M α) :
    Runs t (if t'.ready w then [] else moves)
      ((Strategy.init : Act (BasicStrategy G α) M α Unit).after (t', w)).1
  | select {moves : List (Nat × α)} {t' : BasicStrategy G α} (h : Runs t moves t')
    (w : World M α) :
    Runs t (moves ++ t'.earned w)
      ((Strategy.select : Act (BasicStrategy G α) M α (Option (Proposal V α))).after (t', w)).1
  | bestSaved {moves : List (Nat × α)} {t' : BasicStrategy G α} (h : Runs t moves t') :
    Runs t moves (Strategy.bestSaved M t')
  | resetScores {moves : List (Nat × α)} {t' : BasicStrategy G α} (h : Runs t moves t') :
    Runs t [] (Strategy.resetScores M t')

/-! ## Calls -/

variable {t : BasicStrategy G α} {h : Heuristic G α}

/-- Preparing keeps the kind of a strategy and prepares its heuristic. -/
theorem init_learns (w : World M α) (ht : t.Learns) (hheuristic : t.heuristic? = some h)
    (hn : h.notes.Sound) :
    ∃ h', ((Strategy.init : Act (BasicStrategy G α) M α Unit).after (t, w)).1.heuristic? = some h' ∧
      ((Strategy.init : Act (BasicStrategy G α) M α Unit).after (t, w)).1.Learns ∧
      h.notes.Prepared (t.ready w) h'.notes := by
  let Good : BasicStrategy G α → Prop := fun t' => ∃ h', t'.heuristic? = some h' ∧ t'.Learns ∧
    h.notes.Prepared (t.ready w) h'.notes
  suffices hinit : Leads (At t w.solution) (Strategy.init : Act (BasicStrategy G α) M α Unit)
      (fun _ t' _ => Good t') (fun t' _ => Good t') from hinit.after ⟨rfl, rfl⟩
  show Leads _ BasicStrategy.init _ _
  unfold BasicStrategy.init
  refine leads_part_bind_at ?_
  cases t with
  | hillClimbing s =>
    cases hheuristic
    exact leads_inside ((HillClimbing.init_leads s w.solution hn).mono (fun _ _ h => h)
      (fun _ _ _ h => ⟨_, rfl, trivial, h⟩) fun _ _ h => ⟨_, rfl, trivial, h⟩)
  | greatDeluge s =>
    cases hheuristic
    exact leads_inside ((GreatDeluge.init_leads s w.solution hn).mono (fun _ _ h => h)
      (fun _ _ _ h => ⟨_, rfl, trivial, h⟩) fun _ _ h => ⟨_, rfl, trivial, h⟩)
  | simulatedAnnealing s =>
    cases hheuristic
    exact leads_inside ((SimulatedAnnealing.init_leads s w.solution hn).mono (fun _ _ h => h)
      (fun _ _ _ h => ⟨_, rfl, trivial, h⟩) fun _ _ h => ⟨_, rfl, trivial, h⟩)
  | group _ | construction _ => exact ht.elim

/-- A call keeps the kind of a strategy and selects by its heuristic. -/
theorem select_learns (w : World M α) (ht : t.Learns) (hheuristic : t.heuristic? = some h)
    (hn : h.notes.Sound) :
    Attempt.Ensures (· = (t, w))
      (Strategy.select : Act (BasicStrategy G α) M α (Option (Proposal V α)))
      (fun p? s => ∃ h', s.1.heuristic? = some h' ∧ s.1.Learns ∧
        h.notes.Selects (t.lastCandidate? w) p? h'.notes)
      (fun s => ∃ h', s.1.heuristic? = some h' ∧ s.1.Learns ∧ h.notes.Kept h'.notes) := by
  show Attempt.Ensures _ BasicStrategy.select _ _
  unfold BasicStrategy.select
  refine ensures_whole_part_bind ?_
  cases t with
  | hillClimbing s =>
    cases hheuristic
    refine Attempt.ensures_focus fun s' hs' => ?_
    rw [hs']
    exact (HillClimbing.select_selects (s, w) hn).mono (fun _ h => h)
      (fun _ _ h => ⟨_, rfl, trivial, h⟩) fun _ h => ⟨_, rfl, trivial, h⟩
  | greatDeluge s =>
    cases hheuristic
    refine Attempt.ensures_focus fun s' hs' => ?_
    rw [hs']
    exact (GreatDeluge.select_selects (s, w) hn).mono (fun _ h => h)
      (fun _ _ h => ⟨_, rfl, trivial, h⟩) fun _ h => ⟨_, rfl, trivial, h⟩
  | simulatedAnnealing s =>
    cases hheuristic
    refine Attempt.ensures_focus fun s' hs' => ?_
    rw [hs']
    exact (SimulatedAnnealing.select_selects (s, w) hn).mono (fun _ h => h)
      (fun _ _ h => ⟨_, rfl, trivial, h⟩) fun _ h => ⟨_, rfl, trivial, h⟩
  | group _ | construction _ => exact ht.elim

end BasicStrategy

/-! ## The ledger -/

section

variable {K : Type} [Field K]

/-- What a selector has earned by moves: the improvements, or one for each move. -/
def credit (method : LearningMethod) (moves : List (Nat × K)) (c : Nat) : K :=
  match method with
  | .delta => ((moves.filter fun move => move.1 = c).map fun move => -move.2).sum
  | _ => (moves.filter fun move => move.1 = c).length

theorem credit_nil (method : LearningMethod) : credit method ([] : List (Nat × K)) = fun _ => 0 := by
  funext c
  unfold credit
  cases method <;> simp

variable [LinearOrder K] [Scalar.Functions K]

/-- Both rules credit a move with the amount that the tables learn. -/
theorem credit_append {method : LearningMethod} (hmethod : method = .delta ∨ method = .count)
    (moves : List (Nat × K)) (i : Nat) (delta time : K) (c : Nat) :
    credit method (moves ++ [(i, delta)]) c =
      credit method moves c + if i = c then learningIncrement method delta time else 0 := by
  unfold credit
  rcases hmethod with rfl | rfl
  · by_cases hi : i = c
    · simp [learningIncrement, List.filter_append, hi]
    · simp [List.filter_append, hi]
  · by_cases hi : i = c
    · simp [learningIncrement, List.filter_append, hi, Scores.one_eq]
    · simp [List.filter_append, hi]

variable [IsStrictOrderedRing K]

theorem learningIncrement_nonneg {method : LearningMethod}
    (hmethod : method = .delta ∨ method = .count) {delta : K} (hdelta : delta ≤ 0) (time : K) :
    0 ≤ learningIncrement method delta time := by
  rcases hmethod with rfl | rfl
  · exact neg_nonneg.2 hdelta
  · show (0 : K) ≤ @OfNat.ofNat K 1 Scalar.instOfNat
    rw [Scores.one_eq]
    exact zero_le_one

variable {n n' : Notes K} {candidate? : Option (Nat × Candidate V K)} {p? : Option (Proposal V K)}
  {moves : List (Nat × K)}

/-- A call puts into the tables what its move earns. -/
theorem Notes.Selects.balanced
    (h : n.Selects candidate? p? n')
    (hmethod : n.config.learningMethod = .delta ∨ n.config.learningMethod = .count)
    (hbalanced : n.scores.Balanced n.count (credit n.config.learningMethod moves)) :
    n'.scores.Balanced n.count
      (credit n.config.learningMethod (moves ++ effectOf p? candidate?)) := by
  cases h with
  | kept hkept hworse =>
    have heffect : effectOf p? candidate? = [] := by
      cases p? with
      | none => rfl
      | some p =>
        cases p with
        | lazy _ _ => rfl
        | move m =>
          obtain ⟨hm, i, -, hcandidate⟩ := hworse m rfl
          rw [hcandidate]
          exact if_neg hm
    rw [heffect, List.append_nil, hkept.scores_eq]
    exact hbalanced
  | @improved n₀ i m hkept hpicked hcandidate himproved time =>
    have heffect : effectOf (V := V) (some (.move m)) candidate? = [(i, m.delta)] := by
      rw [hcandidate]
      exact if_pos himproved
    have hrow := hkept.sound.rowOf_le
    have hi := hpicked.lt_count
    rw [hkept.count_eq] at hrow hi
    have himproved' : m.delta ≤ (0 : K) := by
      rw [← Scalar.zero_eq (K := K)]
      exact himproved
    have hrewarded := hbalanced.rewarded hrow hi
      (learningIncrement_nonneg hmethod himproved' time) n₀.ended
    have hcredit : credit n.config.learningMethod (moves ++ [(i, m.delta)]) = fun c =>
        credit n.config.learningMethod moves c +
          if i = c then learningIncrement n.config.learningMethod m.delta time else 0 := by
      funext c
      exact credit_append hmethod moves i m.delta time c
    rw [heffect, hcredit]
    show (n₀.scores.rewarded _ _ _ (learningIncrement n₀.config.learningMethod _ _)).Balanced _ _
    rw [hkept.scores_eq, hkept.config_eq]
    exact hrewarded

omit [IsStrictOrderedRing K] in
/-- It changes at most one cell of each table. -/
theorem Notes.Selects.raisedOnce (h : n.Selects candidate? p? n') :
    n.scores.RaisedOnce n'.scores := by
  cases h with
  | kept hkept _ => exact .inl hkept.scores_eq
  | @improved n₀ i m hkept _ _ _ time =>
    have hraised := Scores.raisedOnce_rewarded n₀.scores n₀.chain.previousRow i n₀.ended
      (learningIncrement n₀.config.learningMethod m.delta time)
    rw [← hkept.scores_eq]
    exact hraised

omit [IsStrictOrderedRing K] in
/-- A move that a call hands out is a candidate of one of the selectors. -/
theorem Notes.Selects.exists_candidate {m : Move V K} (h : n.Selects candidate? (some (.move m)) n') :
    ∃ i < n.count, candidate? = some (i, .eager m) := by
  cases h with
  | kept _ hworse => exact (hworse m rfl).2
  | improved hkept hpicked hcandidate _ _ =>
    exact ⟨_, hkept.count_eq ▸ hpicked.lt_count, hcandidate⟩

namespace BasicStrategy

variable [Model M V K] [MoveGenerator G M V K] {selectors : List (Selector G K)}
  {config : SequenceConfig} {sequence : Sequence G K} {t t' : BasicStrategy G K} {k : Nat}

/-- A strategy that learns, with fit notes and tables that add up. -/
structure Accounts (k : Nat) (config : SequenceConfig) (moves : List (Nat × K))
    (t : BasicStrategy G K) (h : Heuristic G K) : Prop where
  learns : t.Learns
  heuristic_eq : t.heuristic? = some h
  fit : h.notes.Fit k config
  balanced : h.sequence.scores.Balanced k (credit config.learningMethod moves)

omit [IsStrictOrderedRing K] [Model M V K] [MoveGenerator G M V K] in
theorem accounts_new (hseq : Sequence.of selectors config = .ok sequence) (hnew : t.New sequence)
    (ht : t.Learns) : ∃ h, t.Accounts selectors.length config [] h := by
  obtain ⟨h, hheuristic, hfit⟩ := fit_new hseq (Scores.covers_fresh selectors.length) hnew
  refine ⟨h, ht, hheuristic, hfit, ?_⟩
  have hscores : h.sequence.scores = .fresh selectors.length := by
    obtain ⟨-, rfl⟩ := Sequence.of_withScores_eq_ok hseq
    cases hnew with
    | hillClimbing _ | greatDeluge _ _ | simulatedAnnealing _ | group _ _ _ =>
      cases hheuristic
      rfl
  rw [hscores, credit_nil]
  exact Scores.balanced_fresh selectors.length

/-- Every call keeps the accounts. -/
theorem accounts_of_runs
    (hmethod : config.learningMethod = .delta ∨ config.learningMethod = .count)
    (hstart : ∃ h, t.Accounts k config [] h) (hruns : Runs M t moves t') :
    ∃ h, t'.Accounts k config moves h := by
  induction hruns with
  | new => exact hstart
  | @init moves t' _ w ih =>
    obtain ⟨h, hlearns, hheuristic, hfit, hbalanced⟩ := ih
    obtain ⟨h', hheuristic', hlearns', hprepared⟩ := init_learns w hlearns hheuristic hfit.sound
    refine ⟨h', hlearns', hheuristic', hfit.prepared hprepared, ?_⟩
    have hscores : h'.sequence.scores =
        if t'.ready w then h.sequence.scores.reset else h.sequence.scores := hprepared.scores_eq
    rw [hscores]
    by_cases hready : t'.ready w = true
    · rw [if_pos hready, if_pos hready, credit_nil]
      exact hbalanced.reset
    · rw [if_neg hready, if_neg hready]
      exact hbalanced
  | @select moves t' _ w ih =>
    obtain ⟨h, hlearns, hheuristic, hfit, hbalanced⟩ := ih
    have hselect := select_learns w hlearns hheuristic hfit.sound
    unfold earned
    cases hrun : (Strategy.select : Act (BasicStrategy G K) M K (Option (Proposal V K))) (t', w) with
    | ok p? s =>
      rw [Attempt.after_of_ok hrun]
      obtain ⟨h', hheuristic', hlearns', hselects⟩ := hselect.of_ok rfl hrun
      have hfit' := hfit.selects hselects
      refine ⟨h', hlearns', hheuristic', hfit', ?_⟩
      obtain ⟨hsound, rfl, rfl⟩ := hfit
      exact hselects.balanced hmethod hbalanced
    | error e s =>
      rw [Attempt.after_of_error hrun]
      obtain ⟨h', hheuristic', hlearns', hkept⟩ := hselect.of_error rfl hrun
      have hscores : h'.sequence.scores = h.sequence.scores := hkept.scores_eq
      refine ⟨h', hlearns', hheuristic', hfit.kept hkept, ?_⟩
      rw [hscores, List.append_nil]
      exact hbalanced
  | @bestSaved moves t' _ ih =>
    obtain ⟨h, hlearns, hheuristic, hfit, hbalanced⟩ := ih
    cases t' with
    | hillClimbing _ | greatDeluge _ | simulatedAnnealing _ =>
      cases hheuristic
      exact ⟨_, trivial, rfl, hfit, hbalanced⟩
    | group _ | construction _ => exact hlearns.elim
  | @resetScores moves t' _ ih =>
    obtain ⟨h, hlearns, hheuristic, hfit, hbalanced⟩ := ih
    have hfit' : h.resetScores.notes.Fit k config :=
      ⟨hfit.sound.reset, hfit.count_eq, hfit.config_eq⟩
    have hbalanced' : h.resetScores.sequence.scores.Balanced k (credit config.learningMethod []) := by
      rw [credit_nil]
      exact hbalanced.reset
    cases t' with
    | hillClimbing _ | greatDeluge _ | simulatedAnnealing _ =>
      cases hheuristic
      exact ⟨_, trivial, rfl, hfit', hbalanced'⟩
    | group _ | construction _ => exact hlearns.elim

/-- In exact arithmetic both tables add up, for each selector, to what its moves have earned since
they were set back, and every call raises at most one cell of each table and lowers none. The moves
that are handed out are candidates of the selectors. -/
theorem balanced_of_runs (hseq : Sequence.of selectors config = .ok sequence)
    (hnew : t.New sequence) (ht : t.Learns)
    (hmethod : config.learningMethod = .delta ∨ config.learningMethod = .count)
    (hruns : Runs M t moves t') :
    ∃ h, t'.heuristic? = some h ∧
      h.sequence.scores.Balanced selectors.length (credit config.learningMethod moves) ∧
      (Strategy.bestSaved M t').heuristic? = some h ∧
      ∀ w : World M K,
        (∃ h', ((Strategy.select : Act (BasicStrategy G K) M K (Option (Proposal V K))).after
            (t', w)).1.heuristic? = some h' ∧
          h.sequence.scores.RaisedOnce h'.sequence.scores ∧
          h.sequence.scores.AtMost h'.sequence.scores) ∧
        ∀ m s, (Strategy.select : Act (BasicStrategy G K) M K (Option (Proposal V K))) (t', w) =
            .ok (some (.move m)) s →
          ∃ i < selectors.length, t'.lastCandidate? w = some (i, .eager m) := by
  obtain ⟨h, hlearns, hheuristic, hfit, hbalanced⟩ :=
    accounts_of_runs hmethod (accounts_new hseq hnew ht) hruns
  have hbest : (Strategy.bestSaved M t').heuristic? = some h := by
    cases t' with
    | hillClimbing _ | greatDeluge _ | simulatedAnnealing _ => exact hheuristic
    | group _ | construction _ => exact hlearns.elim
  refine ⟨h, hheuristic, hbalanced, hbest, fun w => ?_⟩
  have hselect := select_learns w hlearns hheuristic hfit.sound
  refine ⟨?_, fun m s hrun => ?_⟩
  · have hboth {scores : Scores K} (hraised : h.sequence.scores.RaisedOnce scores) :=
      And.intro hraised hraised.atMost
    cases hrun : (Strategy.select : Act (BasicStrategy G K) M K (Option (Proposal V K))) (t', w) with
    | ok p? s =>
      rw [Attempt.after_of_ok hrun]
      obtain ⟨h', hheuristic', -, hselects⟩ := hselect.of_ok rfl hrun
      exact ⟨h', hheuristic', hboth hselects.raisedOnce⟩
    | error e s =>
      rw [Attempt.after_of_error hrun]
      obtain ⟨h', hheuristic', -, hkept⟩ := hselect.of_error rfl hrun
      exact ⟨h', hheuristic', hboth (.inl hkept.scores_eq)⟩
  · obtain ⟨h', -, -, hselects⟩ := hselect.of_ok rfl hrun
    have hcandidate := hselects.exists_candidate
    rw [show h.notes.count = selectors.length from hfit.count_eq] at hcandidate
    exact hcandidate

/-- The change that the wanderer finds first lowers the total by one, which its tables have learned. -/
theorem balanced_of_runs_wanderer :
    wanderer.earned World.twoVariables = [(0, -1)] ∧
    ∃ h, (((Strategy.select : Act _ _ ℚ (Option (Proposal Nat ℚ))).after
      (wanderer, World.twoVariables)).1.heuristic? = some h) ∧
      h.sequence.scores.Balanced 3 (credit .delta [(0, -1)]) := by
  have hearned : wanderer.earned World.twoVariables = [(0, -1)] := by decide +kernel
  have hnew : wanderer.New ⟨allKinds, .fresh 3, { selectionType := .restrictedTournament }, false⟩ :=
    .hillClimbing 10
  have hseq : Sequence.of allKinds { selectionType := .restrictedTournament } =
      .ok ⟨allKinds, .fresh 3, { selectionType := .restrictedTournament }, false⟩ := rfl
  obtain ⟨h, hheuristic, hbalanced, -⟩ := balanced_of_runs hseq hnew trivial (.inl rfl)
    (.select .new World.twoVariables)
  rw [hearned] at hbalanced
  exact ⟨hearned, h, hheuristic, hbalanced⟩

end BasicStrategy

end

end LocalSearch
