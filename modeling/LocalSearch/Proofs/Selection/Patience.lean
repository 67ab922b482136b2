import LocalSearch.Proofs.Selection.Supply
import LocalSearch.Proofs.Selection.Verdict
import LocalSearch.Selector.Script
/-!
# Hill climbing gives up

An attempt of hill climbing has no bound of its own: the loop of a call ends when a candidate is
accepted or when the two counters are far enough apart, and a new best state brings them together
again at any time. Candidates are counted where they are drawn, by the selectors.

* `HillClimbing.asked`: the candidates that the selectors were asked for.
* `HillClimbing.Advances`: what attempts without an offer of nothing do to the counters.
  `HillClimbing.attempt_advances` is one attempt, `HillClimbing.firstOf_ends` a row of attempts.
* `HillClimbing.Tries`: hill climbing in a search, with the candidates drawn since the counters were
  last brought together.
* `HillClimbing.gives_up`: the bounds for every call in such a search.
-/

namespace LocalSearch

open Act

variable {G M V α : Type} [Scalar α]

/-! ## Counting draws -/

omit [Scalar α] in
/-- The candidates that the selectors of a sequence were asked for. -/
def Sequence.asked (s : Sequence G α) : Nat :=
  (s.selectors.map Selector.calls).sum

variable [MoveGenerator G M V α]

omit [Scalar α] in
theorem Selector.propose_calls (model : M) (n : Nat) :
    Attempt.Ensures (·.1.calls = n)
      (Selector.propose model : Attempt (Selector G α × Random.Stream) (Option (Candidate V α)))
      (fun _ u => u.1.calls = n + 1) (fun u => u.1.calls = n + 1) := by
  unfold Selector.propose
  refine Attempt.Ensures.bind (Q := fun _ u => u.1.calls = n + 1)
    (Attempt.ensures_modify fun _ h => congrArg (· + 1) h) fun _ => ?_
  refine Attempt.Ensures.bind (Q := fun _ u => u.1.calls = n + 1)
    (Attempt.ensures_focus fun _ h => Attempt.ensures_of (fun _ _ _ _ _ => h)
      fun _ _ _ _ _ => h) fun c? => ?_
  dsimp only
  split
  · exact Attempt.Ensures.bind (Q := fun _ u => u.1.calls = n + 1)
      (Attempt.ensures_modify fun _ h => h) fun _ => Attempt.ensures_pure fun _ h => h
  · exact Attempt.ensures_pure fun _ h => h

omit [Scalar α] [MoveGenerator G M V α] in
/-- One of the selectors was asked once more. -/
theorem Sequence.asked_set {s : Sequence G α} {index : Nat} {selector selector' : Selector G α}
    (h : fetch s.selectors index = .ok selector) (hcalls : selector'.calls = selector.calls + 1) :
    Sequence.asked { s with selectors := s.selectors.set index selector' } = s.asked + 1 := by
  obtain ⟨hlt, hget⟩ := List.getElem?_eq_some_iff.1 (fetch_eq_ok_iff.1 h)
  have hlt' : index < (s.selectors.map Selector.calls).length := by simpa using hlt
  have hold : (s.selectors.map Selector.calls).set index selector.calls =
      s.selectors.map Selector.calls := by
    rw [← hget, ← List.getElem_map Selector.calls]
    exact List.set_getElem_self hlt'
  have hasked : s.asked = ((s.selectors.map Selector.calls).set index selector.calls).sum := by
    rw [hold]
    rfl
  show ((s.selectors.set index selector').map Selector.calls).sum = s.asked + 1
  rw [hasked, List.map_set, List.sum_set, List.sum_set, if_pos hlt', if_pos hlt', hcalls]
  omega

omit [Scalar α] in
/-- Asking a selector counts, also if it fails; only a selector that does not exist is not asked. -/
theorem Sequence.propose_asked (index n : Nat) :
    Leads (fun s _ => s.asked = n)
      (Sequence.propose index : Act (Sequence G α) M α (Option (Candidate V α)))
      (fun _ s _ => s.asked = n + 1) (fun s _ => s.asked = n ∨ s.asked = n + 1) := by
  unfold Sequence.propose
  refine leads_get_bind fun s w hs => ?_
  refine leads_lift_bind (fun _ _ h => .inl (h.1 ▸ hs)) fun selector hselector => ?_
  refine Attempt.ensures_focus fun t ht => Attempt.ensures_focus fun u hu => ?_
  obtain rfl : u.1 = s := by rw [hu]; exact ht.1
  refine (Selector.propose_calls w.solution.model selector.calls).mono (fun _ h => by rw [h])
    (fun _ v hv => ?_) fun v hv => ?_
  · exact (Sequence.asked_set hselector hv).trans (congrArg (· + 1) hs)
  · exact .inr ((Sequence.asked_set hselector hv).trans (congrArg (· + 1) hs))

omit [MoveGenerator G M V α] in
/-- A pick asks nobody. -/
theorem Sequence.pick_asked (chain : List Nat) (n : Nat) :
    Leads (fun s _ => s.asked = n) (Sequence.pick chain : Act (Sequence G α) M α Nat)
      (fun _ s _ => s.asked = n) (fun s _ => s.asked = n) := by
  unfold Sequence.pick
  refine leads_get_bind fun s w hs => ?_
  refine leads_lift_bind (fun _ _ h => h.1 ▸ hs) fun (picked, ended, random) _ => ?_
  refine Leads.bind (Q := fun _ s _ => s.asked = n) (leads_set fun _ _ _ => hs) fun _ => ?_
  exact leads_report_bind fun _ => leads_pure fun _ _ h => h

/-- A draw asks one selector, unless it fails before. -/
theorem drawCandidate_asked (n : Nat) :
    Leads (fun h _ => h.sequence.asked = n)
      (drawCandidate : Act (Heuristic G α) M α (Drawn V α))
      (fun _ h _ => h.sequence.asked = n + 1)
      (fun h _ => h.sequence.asked = n ∨ h.sequence.asked = n + 1) := by
  unfold drawCandidate Heuristic.draw
  simp only [bind_assoc, pure_bind]
  refine leads_part_bind_any fun h => ?_
  refine Leads.bind (Q := fun _ h _ => h.sequence.asked = n) ?_ fun index => ?_
  · exact leads_within fun t _ ht =>
      ((Sequence.pick_asked _ n).mono_error fun _ _ h => .inl h).at ht
  refine Leads.bind (Q := fun _ h _ => h.sequence.asked = n + 1)
    (leads_within fun t _ ht => (Sequence.propose_asked index n).at ht) fun c? => ?_
  cases c? with
  | none =>
    exact Leads.bind (Q := fun _ h _ => h.sequence.asked = n + 1) (leads_change fun _ _ h => h)
      fun _ => leads_pure fun _ _ h => h
  | some c => exact leads_pure fun _ _ h => h

/-! ## Enough rounds -/

/-- More rounds change nothing once a loop of attempts ends before its rounds do. -/
theorem Attempt.firstOf_add {σ β : Type} {attempt : Attempt σ (Option β)} {k : Nat} {s : σ}
    (h : ∀ s', firstOf attempt k s ≠ .ok none s') (j : Nat) :
    firstOf attempt (k + j) s = firstOf attempt k s := by
  induction k generalizing s with
  | zero => exact absurd rfl (h s)
  | succ k ih =>
    rw [Nat.succ_add]
    unfold firstOf
    cases hrun : attempt s with
    | error e s' => rw [bind_of_error hrun, bind_of_error hrun]
    | ok answer? s' =>
      rw [bind_of_ok hrun, bind_of_ok hrun]
      cases answer? with
      | some answer => rfl
      | none =>
        refine ih fun s'' hs'' => h s'' ?_
        unfold firstOf
        rw [bind_of_ok hrun]
        exact hs''

namespace HillClimbing

/-! ## One attempt -/

omit [Scalar α] in
/-- The candidates that the selectors were asked for. -/
def asked (h : HillClimbing G α) : Nat :=
  h.heuristic.sequence.asked

omit [Scalar α] in
/-- What decides when the strategy gives up, and the draws so far. -/
structure Advances (h : HillClimbing G α) (k n : Nat) (h' : HillClimbing G α) : Prop where
  maxIdle_eq : h'.maxIdle = h.maxIdle
  lastImproving_eq : h'.lastImproving = h.lastImproving
  iteration_eq : h'.iteration = h.iteration + k
  asked_eq : h'.asked = h.asked + n

omit [Scalar α] in
/-- The strategy counts anew. -/
structure GivesUp (h : HillClimbing G α) (n : Nat) (h' : HillClimbing G α) : Prop where
  maxIdle_eq : h'.maxIdle = h.maxIdle
  lastImproving_eq : h'.lastImproving = 0
  iteration_eq : h'.iteration = 0
  asked_eq : h'.asked = h.asked + n

variable {h h' h'' : HillClimbing G α}

omit [Scalar α] [MoveGenerator G M V α] in
theorem Advances.refl (h : HillClimbing G α) : Advances h 0 0 h :=
  ⟨rfl, rfl, rfl, rfl⟩

omit [Scalar α] [MoveGenerator G M V α] in
theorem Advances.trans {k n k' n' : Nat} (hfirst : Advances h k n h')
    (hthen : Advances h' k' n' h'') : Advances h (k + k') (n + n') h'' :=
  ⟨hthen.maxIdle_eq.trans hfirst.maxIdle_eq,
    hthen.lastImproving_eq.trans hfirst.lastImproving_eq,
    by rw [hthen.iteration_eq, hfirst.iteration_eq, Nat.add_assoc],
    by rw [hthen.asked_eq, hfirst.asked_eq, Nat.add_assoc]⟩

omit [Scalar α] [MoveGenerator G M V α] in
theorem Advances.givesUp {k n n' : Nat} (hfirst : Advances h k n h') (hthen : GivesUp h' n' h'') :
    GivesUp h (n + n') h'' :=
  ⟨hthen.maxIdle_eq.trans hfirst.maxIdle_eq, hthen.lastImproving_eq, hthen.iteration_eq,
    by rw [hthen.asked_eq, hfirst.asked_eq, Nat.add_assoc]⟩

omit [Scalar α] [MoveGenerator G M V α] in
/-- The attempts since the last new best state. -/
theorem Advances.idle_eq {k n : Nat} (hadvances : Advances h k n h')
    (hle : h.lastImproving ≤ h.iteration) : h'.idle = h.idle + k := by
  unfold idle
  rw [hadvances.iteration_eq, hadvances.lastImproving_eq]
  omega

omit [Scalar α] [MoveGenerator G M V α] in
/-- What concerns the heuristic and asks nobody. -/
theorem onHeuristic_advances {β : Type} {x : Act (Heuristic G α) M α β}
    (hx : Spares (·.sequence.asked) x) (h : HillClimbing G α) :
    Leads (fun h' _ => h' = h) (onHeuristic x) (fun _ h' _ => Advances h 0 0 h')
      (fun h' _ => Advances h 0 0 h') := by
  refine leads_within fun t _ ht => ?_
  subst ht
  exact ((hx.leads (· = t.asked)).mono (fun _ _ hu => hu) (fun _ _ _ hu => ⟨rfl, rfl, rfl, hu⟩)
    fun _ _ hu => ⟨rfl, rfl, rfl, hu⟩).at rfl

omit [MoveGenerator G M V α] in
/-- What is made of a draw counts nothing, and offers something or gives no answer. -/
theorem weigh_advances (h : HillClimbing G α) (d : Drawn V α) :
    Leads (fun h' _ => h' = h)
      (weigh (some d) : Act (HillClimbing G α) M α (Option (Option (Proposal V α))))
      (fun answer h' _ => answer ≠ some none ∧ Advances h 0 0 h')
      (fun h' _ => Advances h 0 0 h') := by
  have hpure {answer : Option (Option (Proposal V α))} (hanswer : answer ≠ some none) :
      Leads (fun h' _ => Advances h 0 0 h') (pure answer : Act (HillClimbing G α) M α _)
        (fun answer h' _ => answer ≠ some none ∧ Advances h 0 0 h')
        (fun h' _ => Advances h 0 0 h') :=
    leads_pure fun _ _ hh => ⟨hanswer, hh⟩
  have hstart : ∀ h' : HillClimbing G α, Solution M α → h' = h → Advances h 0 0 h' :=
    fun _ _ hh => hh ▸ .refl h
  cases d with
  | yield => exact (hpure (by simp)).mono_pre hstart
  | empty => exact (hpure (by simp)).mono_pre hstart
  | candidate index c =>
    cases c with
    | lazy c => exact (hpure (by simp)).mono_pre hstart
    | eager m =>
      show Leads _ (if m.delta ≤ 0 then _ else _) _ _
      split
      · have hcalls : Spares (·.sequence.selectors.map Selector.calls)
            (rewardMove index m.delta : Act (Heuristic G α) M α Unit) :=
          spares_rewardMove_map (fun _ _ => rfl) index m.delta
        have hreward : Spares (·.sequence.asked)
            (rewardMove index m.delta : Act (Heuristic G α) M α Unit) :=
          Attempt.fixes_of_at fun s => (hcalls.at s).mono (fun _ hs => hs)
            (fun _ _ hs => congrArg List.sum hs) fun _ hs => congrArg List.sum hs
        have hreport : Spares (·.sequence.asked)
            (reportAccept "hill_climbing" index m.delta fun _ => [] :
              Act (Heuristic G α) M α Unit) :=
          spares_any_reportAccept _ _ _ _
        exact Leads.bind (onHeuristic_advances (Attempt.fixes_bind hreward fun _ => hreport) h)
          fun _ => hpure (by simp)
      · have hfail : Spares (·.sequence.asked)
            (change Heuristic.fail : Act (Heuristic G α) M α Unit) :=
          Attempt.fixes_modify fun _ => rfl
        exact Leads.bind (onHeuristic_advances hfail h) fun _ => hpure (by simp)

/-- Before it draws, an attempt looks at the counters. -/
theorem draw?_advances (h : HillClimbing G α) (hle : h.lastImproving ≤ h.iteration) :
    Leads (fun h' _ => h' = h)
      (draw? : Act (HillClimbing G α) M α (Option (Drawn V α)))
      (fun d? h' _ => if h.maxIdle ≤ h.idle + 1 then d? = none ∧ GivesUp h 0 h'
        else d? ≠ none ∧ Advances h 1 1 h')
      (fun h' _ => h.idle + 1 < h.maxIdle ∧ ∃ n ≤ 1, Advances h 1 n h') := by
  have hidle : ({ h with iteration := h.iteration + 1 } : HillClimbing G α).idle = h.idle + 1 := by
    show h.iteration + 1 - h.lastImproving = h.iteration - h.lastImproving + 1
    omega
  unfold draw?
  refine Leads.bind (Q := fun _ h' _ => h' = { h with iteration := h.iteration + 1 })
    (leads_change fun _ _ hh => by rw [hh]) fun _ => ?_
  refine leads_part_bind fun h₁ s hh => ?_
  subst hh
  rw [hidle]
  split
  · refine leads_report_bind fun _ => Leads.bind
      (Q := fun _ h' _ => GivesUp h 0 h') (leads_change fun _ _ hh => hh.1 ▸ ⟨rfl, rfl, rfl, rfl⟩)
      fun _ => leads_pure fun _ _ hh => ⟨rfl, hh⟩
  · rename_i hpatient
    rw [map_eq_pure_bind]
    refine Leads.bind (Q := fun _ h' _ => Advances h 1 1 h') ?_ fun d =>
      leads_pure fun _ _ hh => ⟨by simp, hh⟩
    refine leads_within fun t _ ht => ?_
    obtain ⟨rfl, rfl⟩ := ht
    refine ((drawCandidate_asked h.asked).mono (fun _ _ hu => hu) (fun _ _ _ hu => ?_)
      fun _ _ hu => ⟨Nat.lt_of_not_le hpatient, ?_⟩).at rfl
    · exact ⟨rfl, rfl, rfl, hu⟩
    · rcases hu with hu | hu
      · exact ⟨0, Nat.zero_le 1, rfl, rfl, rfl, hu⟩
      · exact ⟨1, le_rfl, rfl, rfl, rfl, hu⟩

/-- An attempt gives up if it is one too many. Otherwise it counts, draws one candidate and does not
give up. -/
theorem attempt_advances (h : HillClimbing G α) (hle : h.lastImproving ≤ h.iteration) :
    Leads (fun h' _ => h' = h)
      (attempt : Act (HillClimbing G α) M α (Option (Option (Proposal V α))))
      (fun answer h' _ => if h.maxIdle ≤ h.idle + 1 then answer = some none ∧ GivesUp h 0 h'
        else answer ≠ some none ∧ Advances h 1 1 h')
      (fun h' _ => h.idle + 1 < h.maxIdle ∧ ∃ n ≤ 1, Advances h 1 n h') := by
  rw [attempt_eq]
  refine Leads.bind (draw?_advances h hle) fun d? => ?_
  split
  · refine leads_of_at fun h₁ s ⟨hd, hgives⟩ => ?_
    rw [hd]
    exact leads_pure fun _ _ hh => ⟨rfl, hh.1 ▸ hgives⟩
  · rename_i hpatient
    refine leads_of_at fun h₁ s ⟨hd, hadvances⟩ => ?_
    obtain ⟨d, rfl⟩ := Option.ne_none_iff_exists'.1 hd
    exact (weigh_advances h₁ d).mono (fun _ _ hh => hh.1)
      (fun _ _ _ hh => ⟨hh.1, hadvances.trans hh.2⟩)
      fun _ _ hh => ⟨by omega, 1, le_rfl, hadvances.trans hh⟩

/-! ## A row of attempts -/

omit [Scalar α] in
/-- The counters are still too close for the strategy to give up. -/
def Persists (h h' : HillClimbing G α) : Prop :=
  ∃ k n, n ≤ k ∧ h.idle + k < h.maxIdle ∧ Advances h k n h'

omit [Scalar α] in
/-- What `k` attempts in a row end with. -/
def Ends {β : Type} (h : HillClimbing G α) (k : Nat) :
    Option (Option β) → HillClimbing G α → Prop
  | none, h' => Advances h k k h' ∧ (0 < k → h.idle + k < h.maxIdle)
  | some none, h' => GivesUp h (h.maxIdle - 1 - h.idle) h'
  | some (some _), h' => Persists h h'

omit [Scalar α] [MoveGenerator G M V α] in
/-- One attempt and what persists after it. -/
theorem Advances.persists (hadvances : Advances h 1 1 h') (hle : h.lastImproving ≤ h.iteration)
    (hrest : h'.Persists h'') : h.Persists h'' := by
  obtain ⟨k, n, hn, hlt, hrest⟩ := hrest
  rw [hadvances.idle_eq hle, hadvances.maxIdle_eq] at hlt
  exact ⟨1 + k, 1 + n, by omega, by omega, hadvances.trans hrest⟩

omit [Scalar α] [MoveGenerator G M V α] in
/-- One attempt and what the attempts after it end with: they start one attempt nearer to the end,
and so as many draws are left as before with the draw of this attempt. -/
theorem Advances.ends {β : Type} {k : Nat} {answer : Option (Option β)}
    (hadvances : Advances h 1 1 h') (hle : h.lastImproving ≤ h.iteration)
    (hlt : h.idle + 1 < h.maxIdle) (hrest : h'.Ends k answer h'') : h.Ends (k + 1) answer h'' := by
  have hidle : h'.idle = h.idle + 1 := hadvances.idle_eq hle
  cases answer with
  | none =>
    obtain ⟨hrest, hmore⟩ := hrest
    rw [hidle, hadvances.maxIdle_eq] at hmore
    rw [Nat.add_comm k 1]
    exact ⟨hadvances.trans hrest, fun _ => by omega⟩
  | some p? =>
    cases p? with
    | none =>
      have hgives : GivesUp h (1 + (h'.maxIdle - 1 - h'.idle)) h'' := hadvances.givesUp hrest
      rw [hidle, hadvances.maxIdle_eq] at hgives
      show GivesUp h (h.maxIdle - 1 - h.idle) h''
      rwa [show h.maxIdle - 1 - h.idle = 1 + (h.maxIdle - 1 - (h.idle + 1)) by omega]
    | some p => exact hadvances.persists hle hrest

/-- Attempts in a row, however many: each of them brings the strategy nearer to giving up. -/
theorem firstOf_ends (k : Nat) (h : HillClimbing G α) (hle : h.lastImproving ≤ h.iteration) :
    Leads (fun h' _ => h' = h)
      (Attempt.firstOf attempt k : Act (HillClimbing G α) M α (Option (Option (Proposal V α))))
      (fun answer h' _ => h.Ends k answer h') (fun h' _ => h.Persists h') := by
  induction k generalizing h with
  | zero =>
    exact leads_pure fun _ _ hh => ⟨hh ▸ .refl h, fun hlt => absurd hlt (lt_irrefl 0)⟩
  | succ k ih =>
    unfold Attempt.firstOf
    refine Leads.bind ((attempt_advances h hle).mono_error fun h' _ hh => ?_) fun answer => ?_
    · obtain ⟨hlt, n, hn, hadvances⟩ := hh
      exact ⟨1, n, hn, hlt, hadvances⟩
    split
    · rename_i hlimit
      refine leads_of_at fun h₁ s hh₁ => ?_
      obtain ⟨hanswer, hgives⟩ := hh₁
      rw [hanswer]
      refine leads_pure fun _ _ hh => ?_
      rw [hh.1]
      show GivesUp h (h.maxIdle - 1 - h.idle) h₁
      rwa [show h.maxIdle - 1 - h.idle = 0 by omega]
    · rename_i hpatient
      have hlt : h.idle + 1 < h.maxIdle := Nat.lt_of_not_le hpatient
      refine leads_of_at fun h₁ s hh₁ => ?_
      obtain ⟨hanswer, hadvances⟩ := hh₁
      cases answer with
      | none =>
        have hle₁ : h₁.lastImproving ≤ h₁.iteration := by
          rw [hadvances.lastImproving_eq, hadvances.iteration_eq]
          omega
        exact (ih h₁ hle₁).mono (fun _ _ hh => hh.1)
          (fun _ _ _ hrest => hadvances.ends hle hlt hrest)
          fun _ _ hrest => hadvances.persists hle hrest
      | some p? =>
        cases p? with
        | none => exact absurd rfl hanswer
        | some p => exact leads_pure fun _ _ hh => ⟨1, 1, le_rfl, hlt, hh.1 ▸ hadvances⟩

/-! ## Calls in a search -/

omit [Scalar α] [MoveGenerator G M V α] in
theorem Persists.asked_le (hpersists : Persists h h') :
    h.asked ≤ h'.asked ∧ h'.asked - h.asked ≤ h.maxIdle - 1 - h.idle := by
  obtain ⟨k, n, hn, hlt, hadvances⟩ := hpersists
  rw [hadvances.asked_eq]
  omega

omit [Scalar α] in
/-- The attempts since the last new best state number fewer than the limit, and there are at most as
many draws as attempts. -/
structure Patient (maxIdle n : Nat) (h : HillClimbing G α) : Prop where
  maxIdle_eq : h.maxIdle = maxIdle
  lastImproving_le : h.lastImproving ≤ h.iteration
  idle_lt : h.idle < max maxIdle 1
  drawn_le : n ≤ h.idle

omit [Scalar α] [MoveGenerator G M V α] in
/-- It is so when the counters are equal. -/
theorem patient_of_eq {maxIdle : Nat} (hmax : h.maxIdle = maxIdle)
    (heq : h.lastImproving = h.iteration) : h.Patient maxIdle 0 where
  maxIdle_eq := hmax
  lastImproving_le := heq.le
  idle_lt := by
    unfold idle
    omega
  drawn_le := Nat.zero_le _

omit [Scalar α] [MoveGenerator G M V α] in
/-- It stays so as long as the strategy does not give up, with the draws that were made. -/
theorem Patient.persists {maxIdle n : Nat} (hh : h.Patient maxIdle n)
    (hpersists : Persists h h') : h'.Patient maxIdle (n + (h'.asked - h.asked)) := by
  obtain ⟨k, j, hj, hlt, hadvances⟩ := hpersists
  have hidle : h'.idle = h.idle + k := hadvances.idle_eq hh.lastImproving_le
  have hmax := hh.maxIdle_eq
  refine ⟨hadvances.maxIdle_eq.trans hmax, ?_, ?_, ?_⟩
  · rw [hadvances.lastImproving_eq, hadvances.iteration_eq]
    exact Nat.le_add_right_of_le hh.lastImproving_le
  · omega
  · rw [hidle, hadvances.asked_eq]
    have := hh.drawn_le
    omega

variable [Model M V α]

omit [Model M V α] in
/-- A call gives up after as many draws as are left, or it makes fewer attempts. -/
theorem select_ends (h : HillClimbing G α) (hle : h.lastImproving ≤ h.iteration) :
    Leads (fun h' _ => h' = h) (select : Act (HillClimbing G α) M α (Option (Proposal V α)))
      (fun p? h' _ => h.Ends (h.maxIdle + 1) (some p?) h') (fun h' _ => h.Persists h') := by
  unfold select
  refine leads_part_bind fun h₁ s hh => ?_
  subst hh
  refine Leads.bind ((firstOf_ends (h₁.maxIdle + 1) h₁ hle).mono_pre fun _ _ hh => hh.1)
    fun answer => ?_
  cases answer with
  | none =>
    refine leads_pure fun _ _ hh => ?_
    have hlt := hh.2 (Nat.succ_pos _)
    omega
  | some p? =>
    cases p? with
    | none => exact leads_pure fun _ _ hh => hh
    | some p => exact leads_pure fun _ _ hh => hh

/-- Preparing for a search sets the counters to zero. One that fails leaves them alone. -/
theorem init_restarts (h : HillClimbing G α) :
    Leads (fun h' _ => h' = h) (Strategy.init : Act (HillClimbing G α) M α Unit)
      (fun _ h' _ => h'.maxIdle = h.maxIdle ∧ h'.lastImproving = h'.iteration)
      (fun h' _ => h'.maxIdle = h.maxIdle ∧ h'.lastImproving = h.lastImproving ∧
        h'.iteration = h.iteration) := by
  show Leads _ init _ _
  unfold init
  refine leads_solution_bind_any fun now => ?_
  refine Leads.bind (Q := fun _ h' _ => h'.maxIdle = h.maxIdle) ?_ fun _ => ?_
  · refine leads_within fun t _ ht => ?_
    subst ht
    exact Attempt.ensures_of (fun _ _ _ _ _ => rfl) fun _ _ _ _ _ => ⟨rfl, rfl, rfl⟩
  · exact leads_change fun _ _ hh => ⟨hh, rfl⟩

/-- The candidates that a call draws. -/
def drawn (h : HillClimbing G α) (w : World M α) : Nat :=
  ((Strategy.select : Act (HillClimbing G α) M α _).after (h, w)).1.asked - h.asked

variable (M) in
/-- Hill climbing in a search, with the candidates drawn since it was prepared, a new best state was
saved or it gave up. Each operation may meet any state of the world, and operations that fail
count. -/
inductive Tries (start : HillClimbing G α) : Nat → HillClimbing G α → Prop
  | start : Tries start 0 start
  | init {n : Nat} {h : HillClimbing G α} (w : World M α)
    (hok : ((Strategy.init : Act (HillClimbing G α) M α Unit).answer? (h, w)).isSome) :
    Tries start n h →
      Tries start 0 ((Strategy.init : Act (HillClimbing G α) M α Unit).after (h, w)).1
  | initFails {n : Nat} {h : HillClimbing G α} (w : World M α)
    (hfails : (Strategy.init : Act (HillClimbing G α) M α Unit).answer? (h, w) = none) :
    Tries start n h →
      Tries start n ((Strategy.init : Act (HillClimbing G α) M α Unit).after (h, w)).1
  | select {n : Nat} {h : HillClimbing G α} (w : World M α)
    (hanswer : (Strategy.select : Act (HillClimbing G α) M α _).answer? (h, w) ≠ some none) :
    Tries start n h →
      Tries start (n + h.drawn w)
        ((Strategy.select : Act (HillClimbing G α) M α _).after (h, w)).1
  | giveUp {n : Nat} {h : HillClimbing G α} (w : World M α)
    (hanswer : (Strategy.select : Act (HillClimbing G α) M α _).answer? (h, w) = some none) :
    Tries start n h →
      Tries start 0 ((Strategy.select : Act (HillClimbing G α) M α _).after (h, w)).1
  | bestSaved {n : Nat} {h : HillClimbing G α} :
    Tries start n h → Tries start 0 (Strategy.bestSaved M h)
  | resetScores {n : Nat} {h : HillClimbing G α} :
    Tries start n h → Tries start n (Strategy.resetScores M h)

/-- A call that gives up. -/
theorem select_givesUp (hle : h.lastImproving ≤ h.iteration) {w : World M α}
    (hanswer : (Strategy.select : Act (HillClimbing G α) M α _).answer? (h, w) = some none) :
    GivesUp h (h.maxIdle - 1 - h.idle)
      ((Strategy.select : Act (HillClimbing G α) M α _).after (h, w)).1 := by
  obtain ⟨p?, hrun⟩ := Attempt.exists_ok_after (Option.isSome_of_eq_some hanswer)
  have hends : h.Ends (h.maxIdle + 1) (some p?) _ :=
    ((select_ends h hle).run (t := (h, w)) rfl).of_ok rfl hrun
  rw [Attempt.answer?, hrun, Option.some.injEq] at hanswer
  rw [hanswer] at hends
  exact hends

/-- Any other call, also one that fails. -/
theorem select_persists (hle : h.lastImproving ≤ h.iteration) {w : World M α}
    (hanswer : (Strategy.select : Act (HillClimbing G α) M α _).answer? (h, w) ≠ some none) :
    Persists h ((Strategy.select : Act (HillClimbing G α) M α _).after (h, w)).1 := by
  have hends := (select_ends (M := M) (V := V) h hle).run (t := (h, w)) rfl
  cases hrun : (Strategy.select : Act (HillClimbing G α) M α _) (h, w) with
  | error e t =>
    rw [Attempt.after_of_error hrun]
    exact hends.of_error rfl hrun
  | ok p? t =>
    rw [Attempt.after_of_ok hrun]
    have hends : h.Ends (h.maxIdle + 1) (some p?) t.1 := hends.of_ok rfl hrun
    cases p? with
    | some p => exact hends
    | none => exact absurd (by rw [Attempt.answer?, hrun]) hanswer

omit [Model M V α] in
/-- The counters keep their order, however many attempts are made. -/
theorem firstOf_ordered (hle : h.lastImproving ≤ h.iteration) (k : Nat) (w : World M α) :
    let h' := ((Attempt.firstOf attempt k : Act (HillClimbing G α) M α
      (Option (Option (Proposal V α)))).after (h, w)).1
    h'.lastImproving ≤ h'.iteration := by
  have hadvances {k n : Nat} {h' : HillClimbing G α} (hh : Advances h k n h') :
      h'.lastImproving ≤ h'.iteration := by
    rw [hh.lastImproving_eq, hh.iteration_eq]
    exact Nat.le_add_right_of_le hle
  have hpersists {h' : HillClimbing G α} (hh : Persists h h') :
      h'.lastImproving ≤ h'.iteration := by
    obtain ⟨_, _, _, _, hh⟩ := hh
    exact hadvances hh
  refine Leads.after (P := fun h' _ => h' = h) (E := fun h' _ => h'.lastImproving ≤ h'.iteration)
    ((firstOf_ends k h hle).mono (fun _ _ hh => hh) (fun answer h' _ hh => ?_)
      fun _ _ hh => hpersists hh) rfl
  cases answer with
  | none => exact hadvances hh.1
  | some p? =>
    cases p? with
    | none => exact (hh.lastImproving_eq.trans hh.iteration_eq.symm).le
    | some p => exact hpersists hh

omit [Model M V α] in
/-- With more rounds than the limit there is an answer. -/
theorem firstOf_answers (hle : h.lastImproving ≤ h.iteration) {k : Nat} (hk : h.maxIdle < k)
    (w : World M α) (t : HillClimbing G α × World M α) :
    (Attempt.firstOf attempt k : Act (HillClimbing G α) M α (Option (Option (Proposal V α))))
      (h, w) ≠ .ok none t := by
  intro hrun
  have hends : h.Ends k (none : Option (Option (Proposal V α))) t.1 :=
    ((firstOf_ends k h hle).run (t := (h, w)) rfl).of_ok rfl hrun
  have hlt := hends.2 (by omega)
  omega

/-- So a call gives the answer that any number of rounds above the limit gives. -/
theorem firstOf_eq_select (hle : h.lastImproving ≤ h.iteration) {k : Nat} (hk : h.maxIdle < k)
    (w : World M α) :
    (Option.join <$> (Attempt.firstOf attempt k : Act (HillClimbing G α) M α
      (Option (Option (Proposal V α))))) (h, w) =
      (Strategy.select : Act (HillClimbing G α) M α (Option (Proposal V α))) (h, w) := by
  have henough := Attempt.firstOf_add
    (firstOf_answers (V := V) hle (Nat.lt_succ_self h.maxIdle) w) (k - (h.maxIdle + 1))
  rw [Nat.add_sub_cancel' hk] at henough
  have hselect : (Strategy.select : Act (HillClimbing G α) M α (Option (Proposal V α))) (h, w) =
      (Option.join <$> (Attempt.firstOf attempt (h.maxIdle + 1) : Act (HillClimbing G α) M α
        (Option (Option (Proposal V α))))) (h, w) := by
    rw [map_eq_pure_bind]
    rfl
  rw [hselect]
  show EStateM.map _ _ _ = EStateM.map _ _ _
  unfold EStateM.map
  rw [henough]

theorem Tries.patient {start : HillClimbing G α} {n : Nat} (hstart : start.iteration = 0)
    (hstart' : start.lastImproving = 0) (htries : Tries M start n h) :
    h.Patient start.maxIdle n := by
  induction htries with
  | start => exact patient_of_eq rfl (hstart'.trans hstart.symm)
  | init w hok _ ih =>
    obtain ⟨_, hrun⟩ := Attempt.exists_ok_after hok
    obtain ⟨hmax, heq⟩ := ((init_restarts _).run (t := (_, w)) rfl).of_ok rfl hrun
    exact patient_of_eq (hmax.trans ih.maxIdle_eq) heq
  | @initFails n h w hfails _ ih =>
    cases hrun : (Strategy.init : Act (HillClimbing G α) M α Unit) (h, w) with
    | ok _ t => simp [Attempt.answer?, hrun] at hfails
    | error e t =>
      obtain ⟨hmax, hlast, hiteration⟩ :=
        ((init_restarts _).run (t := (_, w)) rfl).of_error rfl hrun
      rw [Attempt.after_of_error hrun]
      have hidle : t.1.idle = h.idle := by rw [idle, idle, hlast, hiteration]
      exact ⟨hmax.trans ih.maxIdle_eq, by rw [hlast, hiteration]; exact ih.lastImproving_le,
        hidle ▸ ih.idle_lt, hidle ▸ ih.drawn_le⟩
  | select w hanswer _ ih => exact ih.persists (select_persists ih.lastImproving_le hanswer)
  | giveUp w hanswer _ ih =>
    have hgives := select_givesUp ih.lastImproving_le hanswer
    exact patient_of_eq (hgives.maxIdle_eq.trans ih.maxIdle_eq)
      (hgives.lastImproving_eq.trans hgives.iteration_eq.symm)
  | bestSaved _ ih => exact patient_of_eq ih.maxIdle_eq rfl
  | resetScores _ ih =>
    exact ⟨ih.maxIdle_eq, ih.lastImproving_le, ih.idle_lt, ih.drawn_le⟩

/-- Whatever the generators do and whenever new best states are saved, hill climbing gives up: the
counters keep their order, also between the attempts of a call; a call needs no more rounds than it
has, and draws at most as often as is left; and all calls since the counters were equal draw less
often than the limit says. -/
theorem gives_up {sequence : Sequence G α} {maxIdle n : Nat}
    (htries : Tries M (.of sequence maxIdle) n h) :
    h.lastImproving ≤ h.iteration ∧ h.idle < max maxIdle 1 ∧ n ≤ maxIdle - 1 ∧
      ∀ w : World M α,
        let attempts (k : Nat) : Act (HillClimbing G α) M α (Option (Option (Proposal V α))) :=
          Attempt.firstOf attempt k
        let call : Act (HillClimbing G α) M α (Option (Proposal V α)) := Strategy.select
        (∀ k, ((attempts k).after (h, w)).1.lastImproving ≤
          ((attempts k).after (h, w)).1.iteration) ∧
        (∀ k, maxIdle < k → (∀ t, attempts k (h, w) ≠ .ok none t) ∧
          (Option.join <$> attempts k) (h, w) = call (h, w)) ∧
        h.asked ≤ (call.after (h, w)).1.asked ∧ h.drawn w ≤ maxIdle - 1 - h.idle ∧
        (call.answer? (h, w) = some none → h.drawn w = maxIdle - 1 - h.idle) ∧
        n + h.drawn w ≤ maxIdle - 1 := by
  have hpatient : h.Patient maxIdle n := htries.patient rfl rfl
  have hle := hpatient.lastImproving_le
  have hlt := hpatient.idle_lt
  have hn := hpatient.drawn_le
  have hmax := hpatient.maxIdle_eq
  refine ⟨hle, hlt, by omega, fun w => ?_⟩
  have hcall : h.asked ≤ ((Strategy.select : Act (HillClimbing G α) M α _).after (h, w)).1.asked ∧
      h.drawn w ≤ maxIdle - 1 - h.idle ∧
      ((Strategy.select : Act (HillClimbing G α) M α _).answer? (h, w) = some none →
        h.drawn w = maxIdle - 1 - h.idle) := by
    by_cases hanswer : (Strategy.select : Act (HillClimbing G α) M α _).answer? (h, w) = some none
    · have hasked := (select_givesUp hle hanswer).asked_eq
      have hdrawn : h.drawn w = maxIdle - 1 - h.idle := by
        rw [drawn, hasked, hmax, Nat.add_sub_cancel_left]
      exact ⟨hasked ▸ Nat.le_add_right _ _, hdrawn.le, fun _ => hdrawn⟩
    · have hasked := (select_persists hle hanswer).asked_le
      exact ⟨hasked.1, hmax ▸ hasked.2, fun h => absurd h hanswer⟩
  refine ⟨fun k => firstOf_ordered hle k w, fun k hk => ?_, hcall.1, hcall.2.1, hcall.2.2, ?_⟩
  · exact ⟨fun t => firstOf_answers hle (hmax.symm ▸ hk) w t,
      firstOf_eq_select hle (hmax.symm ▸ hk) w⟩
  · have := hcall.2.1
    omega

end HillClimbing

/-! ## A generator whose candidates are lazy -/

/-- Hill climbing that hands out the same lazy change in every call. -/
def HillClimbing.hopeful : HillClimbing (Scripted Nat ℚ) ℚ :=
  .of ⟨[.of "lazy" (.of (.lazy 0 1)) 0], .fresh 1, {}, false⟩ 3

/-- The same in a search after a number of calls. -/
def HillClimbing.hoping : Nat → HillClimbing (Scripted Nat ℚ) ℚ
  | 0 => ((Strategy.init : Act _ (Penalty ℚ) ℚ Unit).after (hopeful, World.settled)).1
  | n + 1 => ((Strategy.select : Act _ (Penalty ℚ) ℚ _).after (hoping n, World.settled)).1

/-- After two lazy changes, which draw as often as the limit allows, the next call draws nothing and
gives up. -/
theorem HillClimbing.gives_up_hopeful :
    Tries (Penalty ℚ) hopeful 2 (hoping 2) ∧
      ((Strategy.select : Act _ (Penalty ℚ) ℚ _).answer? (hoping 2, World.settled)).map
        Option.isNone = some true ∧ (hoping 2).drawn World.settled = 0 := by
  have hoffers (n : Nat) (hn : ((Strategy.select : Act _ (Penalty ℚ) ℚ _).answer?
      (hoping n, World.settled)).map Option.isNone = some false) :
      (Strategy.select : Act _ (Penalty ℚ) ℚ _).answer? (hoping n, World.settled) ≠ some none :=
    fun h => by rw [h] at hn; cases hn
  have hfirst : (hoping 0).drawn World.settled = 1 := by decide +kernel
  have hsecond : (hoping 1).drawn World.settled = 1 := by decide +kernel
  have htries : Tries (Penalty ℚ) hopeful (0 + (hoping 0).drawn World.settled +
      (hoping 1).drawn World.settled) (hoping 2) :=
    .select World.settled (hoffers 1 (by decide +kernel))
      (.select World.settled (hoffers 0 (by decide +kernel))
        (.init World.settled (by decide +kernel) .start))
  rw [hfirst, hsecond] at htries
  have hbounds := (gives_up htries).2.2.2 World.settled
  refine ⟨htries, by decide +kernel, ?_⟩
  have := hbounds.2.2.2.2.2
  omega

end LocalSearch
