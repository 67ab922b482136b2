import LocalSearch.Proofs.Selection.Streak
import LocalSearch.Proofs.Selection.Supply
import LocalSearch.Proofs.Selection.Verdict
/-!
# Draws while a schedule goes on

Great deluge and simulated annealing let their schedule make one iteration in every draw. On a
reheat the draw may yield: the strategy hands over instead of drawing a candidate. Whether it does
depends on the draws since the last reheat, also on those of earlier calls.

* `MoveGenerator.Reliable`: generators that do not fail. `drawCandidate_answers`: nor does a draw.
* `Drawing`: a strategy of this kind, and what can be seen of its draws.
* `Drawing.Fertile`: there was a candidate since the last reheat.
* `Drawing.Turns`: what an attempt does. `Drawing.Call`: what a call does.
* `Drawing.firstOf_calls`: a call is made of its attempts.
* `Drawing.Since`: a strategy in a search, with its draws since it was prepared.
* `Drawing.Governs.call`: every call in a search.
-/

namespace LocalSearch

open Act

variable {S G M V α : Type}

/-! ## Generators that do not fail -/

/-- Generators of the kind `I` stay so, and they do not fail on models with `J`. -/
structure MoveGenerator.Reliable (G : Type) [MoveGenerator G M V α] (I : G → Prop) (J : M → Prop) :
    Prop extends MoveGenerator.Supplies G I (fun (_ : M) (_ : Candidate V α) => True) where
  answers {model : M} : J model → Attempt.Ensures (fun s => I s.1)
    (MoveGenerator.propose model : Attempt (G × Random.Stream) (Option (Candidate V α)))
    (fun _ _ => True) (fun _ => False)

section

variable [MoveGenerator G M V α] {I : G → Prop} {J : M → Prop}

theorem Selector.propose_answers (hG : MoveGenerator.Reliable G I J) {model : M} (hm : J model) :
    Attempt.Ensures (fun s : Selector G α × Random.Stream => I s.1.generator)
      (propose model : Attempt (Selector G α × Random.Stream) (Option (Candidate V α)))
      (fun _ _ => True) (fun _ => False) := by
  unfold propose
  refine Attempt.Ensures.bind (Q := fun _ s => I s.1.generator)
    (Attempt.ensures_modify fun _ h => h) fun _ => ?_
  refine Attempt.Ensures.bind (Q := fun _ _ => True) (Attempt.ensures_focus fun s hs => ?_)
    fun c? => ?_
  · exact (hG.answers hm).mono_pre fun t ht => by rw [ht]; exact hs
  dsimp only
  split
  · exact Attempt.Ensures.bind (Q := fun _ _ => True) (Attempt.ensures_modify fun _ h => h)
      fun _ => Attempt.ensures_pure fun _ h => h
  · exact Attempt.ensures_pure fun _ h => h

theorem Sequence.propose_answers (hG : MoveGenerator.Reliable G I J) {s : Sequence G α}
    {sol : Solution M α} (hs : s.Stocked I) (hsol : J sol.model) {index : Nat}
    (hindex : index < s.selectors.length) :
    Leads (At s sol) (propose index : Act (Sequence G α) M α (Option (Candidate V α)))
      (fun _ _ _ => True) (fun _ _ => False) := by
  have hmem := List.getElem_mem hindex
  have hfetch : fetch s.selectors index = .ok s.selectors[index] :=
    fetch_eq_ok_iff.2 (List.getElem?_eq_getElem hindex)
  unfold propose
  refine leads_get_bind fun t w hat => ?_
  obtain ⟨rfl, rfl⟩ := hat
  refine leads_lift_bind_of_ok hfetch ?_
  refine Attempt.ensures_focus fun _ _ => Attempt.ensures_focus fun _ _ => ?_
  exact (Selector.propose_answers hG hsol).mono_pre fun u hu => hu ▸ stocked_iff.1 hs _ hmem

variable [Scalar α]

namespace Heuristic

/-- What is known of a heuristic in a search: its notes are fit and its generators are reliable. -/
structure Reliable (I : G → Prop) (k : Nat) (config : SequenceConfig) (h : Heuristic G α) :
    Prop where
  fit : h.notes.Fit k config
  stocked : h.sequence.Stocked I

variable {k : Nat} {config : SequenceConfig} {h : Heuristic G α}

omit [Scalar α] [MoveGenerator G M V α] in
theorem Reliable.clear (hh : h.Reliable I k config) : h.clear.Reliable I k config :=
  ⟨⟨hh.fit.sound.clear, hh.fit.count_eq, hh.fit.config_eq⟩, hh.stocked⟩

omit [MoveGenerator G M V α] in
theorem Reliable.resetScores (hh : h.Reliable I k config) : h.resetScores.Reliable I k config :=
  ⟨⟨hh.fit.sound.reset, hh.fit.count_eq, hh.fit.config_eq⟩, hh.stocked⟩

end Heuristic

/-- A draw from a sequence of such generators does not fail. -/
theorem drawCandidate_answers (hG : MoveGenerator.Reliable G I J) {n : Notes α} (hn : n.Sound) :
    Leads (fun h s => (h.notes = n ∧ h.sequence.Stocked I) ∧ J s.model)
      (drawCandidate : Act (Heuristic G α) M α (Drawn V α)) (fun _ _ _ => True)
      (fun _ _ => False) := by
  unfold drawCandidate Heuristic.draw
  simp only [bind_assoc, pure_bind]
  refine leads_part_bind fun h s ⟨⟨hnotes, hstocked⟩, hs⟩ => ?_
  have hpick := (Heuristic.pick_leads (G := G) (M := M) hn (congrArg (·.chain.selectors) hnotes)
    (E := fun _ _ => False)).at (s := s) hnotes
  have hkept : Leads (At h s)
      (Heuristic.onSequence (Sequence.pick h.chain.selectors) : Act (Heuristic G α) M α Nat)
      (fun _ h s => h.sequence.Stocked I ∧ J s.model)
      (fun h s => h.sequence.Stocked I ∧ J s.model) :=
    leads_within fun _ _ hat => (Sequence.pick_stocked (P := fun s => J s.model) _).at
      ⟨hat.1 ▸ hstocked, hat.2 ▸ hs⟩
  refine Leads.bind ((hpick.and hkept).mono_error fun _ _ h => h.1) fun index => ?_
  refine Leads.bind (Q := fun _ _ _ => True) ?_ fun c? => ?_
  · refine leads_within fun h s ⟨⟨ended, hpicked, hnotes⟩, hstocked, hs⟩ => ?_
    have hcount : n.count = h.sequence.selectors.length :=
      (congrArg Notes.count hnotes).symm
    exact (Sequence.propose_answers hG hstocked hs (hcount ▸ hpicked.lt_count)).mono_post
      fun _ _ _ h => h
  · cases c? with
    | none =>
      exact Leads.bind (Q := fun _ _ _ => True) (leads_change fun _ _ h => h) fun _ =>
        leads_pure fun _ _ h => h
    | some c => exact leads_pure fun _ _ h => h

/-- A heuristic after a draw. -/
structure Heuristic.Drew (I : G → Prop) (d : Drawn V α) (h : Heuristic G α) : Prop where
  stocked : h.sequence.Stocked I
  ready : ∀ i c, d = .candidate i c → h.Ready i

theorem drawCandidate_drew (hG : MoveGenerator.Reliable G I J) {k : Nat} {config : SequenceConfig}
    {h : Heuristic G α} (hh : h.Reliable I k config) {s : Solution M α} (hs : J s.model) :
    Leads (At h s) (drawCandidate : Act (Heuristic G α) M α (Drawn V α))
      (fun d h s' => (h.Drew I d ∧ d ≠ .yield) ∧ s' = s) (fun _ _ => False) := by
  have hanswers := (drawCandidate_answers hG hh.fit.sound).at (t := h) ⟨⟨rfl, hh.stocked⟩, hs⟩
  have hdraws := (drawCandidate_draws (M := M) (V := V) hh.fit.sound).at (t := h) (s := s) rfl
  have hsupplies := (drawCandidate_supplies (P := (· = s)) hG.toSupplies).at (t := h)
    ⟨hh.stocked, rfl⟩
  have hyield := (drawCandidate_ne_yield (G := G) (M := M) (V := V)).at (t := h) (s := s)
    (P := fun _ _ => True) trivial
  refine (hanswers.and (hdraws.and (hsupplies.and hyield))).mono (fun _ _ h => h)
    (fun d h' s' hend => ?_) fun _ _ h => h.1
  obtain ⟨-, hdraws, hsupplies, hyield⟩ := hend
  refine ⟨⟨⟨hsupplies.1.1, fun i c hd => ?_⟩, hyield⟩, hsupplies.1.2⟩
  subst hd
  generalize hnotes : h'.notes = n' at hdraws
  cases hdraws with
  | @candidate _ ended hpicked _ =>
    have hsound : h'.notes.Sound := hnotes ▸ hh.fit.sound.pick ended
    exact ⟨hsound, hnotes ▸ ⟨hpicked.lt_count, hpicked.notMem, hpicked.length_lt⟩⟩

/-- The rest of a draw that does not yield. A candidate is marked. -/
theorem leads_drawn {view : S → Heuristic G α} {put : S → Heuristic G α → S} {mark : S → S}
    {f : Drawn V α → Act S M α (Drawn V α)} (hG : MoveGenerator.Reliable G I J) {k : Nat}
    {config : SequenceConfig} {t : S} {s : Solution M α} (ht : (view t).Reliable I k config)
    (hs : J s.model) (hempty : f .empty = pure .empty)
    (hcandidate : ∀ i c, f (.candidate i c) = change mark >>= fun _ => pure (.candidate i c)) :
    Leads (At t s) (within view put drawCandidate >>= f)
      (fun d t' s' => (∃ h : Heuristic G α, (h.Drew I d ∧ d ≠ .yield) ∧
        t' = if d.candidate?.isSome then mark (put t h) else put t h) ∧ s' = s)
      (fun _ _ => False) := by
  refine Leads.bind (Q := fun d t' s' =>
    (∃ h : Heuristic G α, (h.Drew I d ∧ d ≠ .yield) ∧ t' = put t h) ∧ s' = s) ?_ fun d => ?_
  · refine leads_within fun t' s' hat => ?_
    obtain ⟨rfl, rfl⟩ := hat
    exact (drawCandidate_drew hG ht hs).mono_post fun _ h _ hend => ⟨⟨h, hend.1, rfl⟩, hend.2⟩
  cases d with
  | yield => exact fun _ ⟨⟨_, ⟨_, hyield⟩, _⟩, _⟩ => absurd rfl hyield
  | empty =>
    rw [hempty]
    exact leads_pure fun _ _ h => h
  | candidate i c =>
    rw [hcandidate]
    refine Leads.bind (leads_change fun t' _ hend => ?_) fun _ => leads_pure fun _ _ h => h
    obtain ⟨⟨h, hdrew, rfl⟩, hs'⟩ := hend
    exact ⟨⟨h, hdrew, rfl⟩, hs'⟩

end

/-! ## What an attempt leaves alone -/

namespace Heuristic

variable {β γ : Type} {view : S → Heuristic G α} {put : S → Heuristic G α → S} {rest : S → γ}

/-- A strategy has its heuristic apart from the rest of it that is looked at. -/
structure Apart (view : S → Heuristic G α) (put : S → Heuristic G α → S) (rest : S → γ) : Prop where
  view_put (t : S) (h : Heuristic G α) : view (put t h) = h
  rest_put (t : S) (h : Heuristic G α) : rest (put t h) = rest t

/-- What an attempt leaves alone when it decides on its draw. -/
def kept (view : S → Heuristic G α) (rest : S → γ) (u : S × World M α) :
    (List G × γ) × Solution M α :=
  (((view u.1).sequence.generators, rest u.1), u.2.solution)

theorem Apart.fixes_within (h : Apart view put rest) {x : Act (Heuristic G α) M α β}
    (hx : Spares (·.sequence.generators) x) (hquiet : Quiet x) :
    Attempt.Fixes (kept view rest) (within view put x : Act S M α β) := by
  refine Attempt.fixes_of_at fun u => Attempt.ensures_focus fun v hv => ?_
  subst hv
  have hgenerators : Attempt.Ensures (· = (view v.1, v.2)) x
      (fun _ t => t.1.sequence.generators = (view v.1).sequence.generators)
      (fun t => t.1.sequence.generators = (view v.1).sequence.generators) :=
    (hx _).mono_pre fun _ h => by rw [h]
  have hsolution : Attempt.Ensures (· = (view v.1, v.2)) x
      (fun _ t => t.2.solution = v.2.solution) (fun t => t.2.solution = v.2.solution) :=
    (hquiet _).mono_pre fun _ h => by rw [h]
  refine (hgenerators.and hsolution).mono (fun _ h => h) (fun _ t ht => ?_) fun t ht => ?_
  all_goals
    obtain ⟨_, w⟩ := t
    simp only [kept, h.view_put, h.rest_put]
    rw [ht.1, show w.solution = v.2.solution from ht.2]

theorem Apart.fixes_change (h : Apart view put rest) {f : Heuristic G α → Heuristic G α}
    (hf : ∀ h, (f h).sequence.generators = h.sequence.generators) :
    Attempt.Fixes (kept view rest) (within view put (change f) : Act S M α Unit) :=
  h.fixes_within (Attempt.fixes_modify fun _ => hf _) (quiet_change _)

theorem Apart.fixes_reward [Scalar α] (h : Apart view put rest) (index : Nat) (delta : α) :
    Attempt.Fixes (kept view rest) (within view put (rewardMove index delta) : Act S M α Unit) :=
  h.fixes_within (spares_rewardMove _ _) (quiet_rewardMove _ _)

/-- An accepted move is reported and offered. -/
theorem Apart.fixes_offer (h : Apart view put rest) (strategy : String) (index : Nat)
    (m : Move V α) (more : S → Unit → List (String × FieldValue α)) :
    Attempt.Fixes (kept view rest)
      (do
        let s ← part
        within view put (reportAccept strategy index m.delta (more s))
        return some (some (.move m)) : Act S M α (Option (Option (Proposal V α)))) :=
  Attempt.fixes_bind (fun _ _ h => h) fun _ => Attempt.fixes_bind
    (h.fixes_within (spares_reportAccept _ _ _ _) (quiet_reportAccept _ _ _ _)) fun _ =>
      Attempt.fixes_pure _

/-- A candidate is refused. -/
theorem Apart.fixes_refuse (h : Apart view put rest) :
    Attempt.Fixes (kept view rest)
      (do
        within view put (change Heuristic.fail)
        return none : Act S M α (Option (Option (Proposal V α)))) :=
  Attempt.fixes_bind (h.fixes_change fun _ => rfl) fun _ => Attempt.fixes_pure _

end Heuristic

/-! ## Draws -/

/-- A strategy that lets a schedule make one iteration in every draw, with what can be said of a
draw in the state in which it starts. -/
structure Drawing (S M V α : Type) where
  draw : Act S M α (Drawn V α)
  /-- What an attempt makes of its draw. -/
  weigh : Drawn V α → Act S M α (Option (Option (Proposal V α)))
  /-- The iteration of a draw reheats. -/
  reheats : S × World M α → Prop
  /-- What the iteration makes of the schedule, and what the draw does to it after that. -/
  advances : S × World M α → Drawn V α → S → Prop
  /-- The iterations of the schedule. -/
  iteration : S → Nat
  /-- A reheat asks to hand over. -/
  nextOnReheat : S → Bool
  /-- A move that was drawn is accepted. -/
  accepts : S × World M α → Move V α → Prop

namespace Drawing

variable (c : Drawing S M V α)

def attempt : Act S M α (Option (Option (Proposal V α))) :=
  c.draw >>= c.weigh

/-- The states in which a loop of attempts starts its draws, the last one first. -/
def draws (n : Nat) (u : S × World M α) : List (S × World M α) :=
  Attempt.trail (fun v => [v]) c.attempt n u

/-- The draw yields. -/
def Yields (u : S × World M α) : Prop :=
  ∃ u', c.draw u = .ok .yield u'

/-- The draw produces a candidate. -/
def Produces (u : S × World M α) : Prop :=
  ∃ i x u', c.draw u = .ok (.candidate i x) u'

/-- The draw produces a move that is accepted, or a lazy change. -/
def Meets (u : S × World M α) : Prop :=
  ∃ i x u', c.draw u = .ok (.candidate i x) u' ∧ ∀ m, x = .eager m → c.accepts u' m

/-- The draw makes one iteration of the schedule, and what the attempt makes of it makes none. -/
def Advances (u : S × World M α) : Prop :=
  ∃ d u', c.draw u = .ok d u' ∧ c.advances u d u'.1 ∧
    c.iteration (c.attempt.after u).1 = c.iteration u'.1

/-- Some draw produced a candidate, and no draw after it reheated or yielded. The last draw comes
first. -/
def Fertile (log : List (S × World M α)) : Prop :=
  ∃ later u earlier, log = later ++ u :: earlier ∧ c.Produces u ∧
    ∀ v ∈ later, ¬c.reheats v ∧ ¬c.Yields v

theorem not_fertile_nil : ¬c.Fertile [] := by
  rintro ⟨later, u, earlier, hlog, -⟩
  exact List.append_ne_nil_of_right_ne_nil later (List.cons_ne_nil u earlier) hlog.symm

theorem fertile_cons {u : S × World M α} {log : List (S × World M α)} :
    c.Fertile (u :: log) ↔
      c.Produces u ∨ (¬c.reheats u ∧ ¬c.Yields u) ∧ c.Fertile log := by
  constructor
  · rintro ⟨later, v, earlier, hlog, hv, hlater⟩
    cases later with
    | nil =>
      cases hlog
      exact .inl hv
    | cons w later =>
      cases hlog
      obtain ⟨hu, hlater⟩ := List.forall_mem_cons.1 hlater
      exact .inr ⟨hu, later, v, earlier, rfl, hv, hlater⟩
  · rintro (hu | ⟨hu, later, v, earlier, rfl, hv, hlater⟩)
    · exact ⟨[], u, log, rfl, hu, List.forall_mem_nil _⟩
    · exact ⟨u :: later, v, earlier, rfl, hv, List.forall_mem_cons.2 ⟨hu, hlater⟩⟩

/-! ## Attempts -/

variable {c} {flag : S → Bool} {u v u' : S × World M α} {d : Drawn V α}
  {answer : Option (Option (Proposal V α))}

variable (c flag) in
/-- What a draw does. The flag says that there was a candidate since the last reheat. -/
structure Result (u : S × World M α) (d : Drawn V α) (u' : S) : Prop where
  yield_iff : d = .yield ↔ c.reheats u ∧ (c.nextOnReheat u.1 = true ∨ flag u.1 = false)
  flag_iff : flag u' = true ↔
    (∃ i x, d = .candidate i x) ∨ (¬c.reheats u ∧ d ≠ .yield) ∧ flag u.1 = true
  advances : c.advances u d u'

section

variable {t : S} {reheated : Bool} (hreheats : c.reheats u ↔ reheated = true)

include hreheats in
theorem Result.of_yields (hyields : (reheated && (c.nextOnReheat u.1 || !flag u.1)) = true)
    (hflag : flag t = false) (hadvances : c.advances u .yield t) : c.Result flag u .yield t where
  yield_iff := iff_of_true rfl (by rw [hreheats]; simpa using hyields)
  flag_iff := by
    rw [hflag]
    simp
  advances := hadvances

include hreheats in
theorem Result.of_drawn (hyields : ¬(reheated && (c.nextOnReheat u.1 || !flag u.1)) = true)
    (hd : d ≠ .yield) (hflag : flag t = (d.candidate?.isSome || flag u.1 && !reheated))
    (hadvances : c.advances u d t) : c.Result flag u d t where
  yield_iff := iff_of_false hd (by rw [hreheats]; simpa using hyields)
  flag_iff := by
    rw [hflag, hreheats]
    cases d with
    | yield => exact absurd rfl hd
    | empty => simp [Drawn.candidate?, and_comm]
    | candidate i x => simp [Drawn.candidate?]
  advances := hadvances

end

variable (c) in
/-- The answer of an attempt by what was drawn. -/
def Answers (v : S × World M α) : Drawn V α → Option (Option (Proposal V α)) → Prop
  | .yield, answer => answer = some none
  | .empty, answer => answer = none
  | .candidate _ (.lazy _), answer => ∃ p, answer = some (some p)
  | .candidate _ (.eager m), answer =>
    (c.accepts v m ∧ ∃ p, answer = some (some p)) ∨ ¬c.accepts v m ∧ answer = none

variable (c flag) in
/-- What an attempt does. -/
structure Turns (u : S × World M α) (answer : Option (Option (Proposal V α)))
    (u' : S × World M α) : Prop where
  yields_iff : c.Yields u ↔ c.reheats u ∧ (c.nextOnReheat u.1 = true ∨ flag u.1 = false)
  flag_iff : flag u'.1 = true ↔
    c.Produces u ∨ (¬c.reheats u ∧ ¬c.Yields u) ∧ flag u.1 = true
  nothing_iff : answer = some none ↔ c.Yields u
  offers_iff : (∃ p, answer = some (some p)) ↔ c.Meets u
  advances : c.Advances u

theorem yields_iff_of_run (hrun : c.draw u = .ok d v) : c.Yields u ↔ d = .yield := by
  constructor
  · rintro ⟨u', h⟩
    cases hrun.symm.trans h
    rfl
  · rintro rfl
    exact ⟨v, hrun⟩

theorem produces_iff_of_run (hrun : c.draw u = .ok d v) :
    c.Produces u ↔ ∃ i x, d = .candidate i x := by
  constructor
  · rintro ⟨i, x, u', h⟩
    cases hrun.symm.trans h
    exact ⟨i, x, rfl⟩
  · rintro ⟨i, x, rfl⟩
    exact ⟨i, x, v, hrun⟩

theorem meets_iff_of_run (hrun : c.draw u = .ok d v) :
    c.Meets u ↔ ∃ i x, d = .candidate i x ∧ ∀ m, x = .eager m → c.accepts v m := by
  constructor
  · rintro ⟨i, x, u', h, hx⟩
    cases hrun.symm.trans h
    exact ⟨i, x, rfl, hx⟩
  · rintro ⟨i, x, rfl, hx⟩
    exact ⟨i, x, v, hrun, hx⟩

/-- The answer tells whether the draw yields and whether there is something to offer. -/
theorem Answers.tells (h : c.Answers v d answer) :
    (answer = some none ↔ d = .yield) ∧ ((∃ p, answer = some (some p)) ↔
      ∃ i x, d = .candidate i x ∧ ∀ m, x = .eager m → c.accepts v m) := by
  rcases d with _ | _ | ⟨i, m | x⟩
  · obtain rfl : answer = some none := h
    exact ⟨iff_of_true rfl rfl, iff_of_false nofun nofun⟩
  · obtain rfl : answer = none := h
    exact ⟨iff_of_false nofun nofun, iff_of_false nofun nofun⟩
  · rcases h with ⟨haccepts, p, rfl⟩ | ⟨hrefuses, rfl⟩
    · refine ⟨iff_of_false nofun nofun, iff_of_true ⟨p, rfl⟩ ⟨i, .eager m, rfl, fun m' h => ?_⟩⟩
      cases h
      exact haccepts
    · refine ⟨iff_of_false nofun nofun, iff_of_false nofun fun ⟨_, _, hd, haccepts⟩ => ?_⟩
      cases hd
      exact hrefuses (haccepts m rfl)
  · obtain ⟨p, rfl⟩ := h
    exact ⟨iff_of_false nofun nofun, iff_of_true ⟨p, rfl⟩ ⟨i, .lazy x, rfl, nofun⟩⟩

/-- What a draw does and the answer make up what the attempt does. -/
theorem Turns.of_run (hrun : c.draw u = .ok d v) (hweigh : c.weigh d v = .ok answer u')
    (hresult : c.Result flag u d v.1) (hanswer : c.Answers v d answer)
    (hflag : flag u'.1 = flag v.1) (hiteration : c.iteration u'.1 = c.iteration v.1) :
    c.Turns flag u answer u' where
  yields_iff := (yields_iff_of_run hrun).trans hresult.yield_iff
  flag_iff := by
    rw [hflag, hresult.flag_iff, produces_iff_of_run hrun, yields_iff_of_run hrun]
  nothing_iff := hanswer.tells.1.trans (yields_iff_of_run hrun).symm
  offers_iff := hanswer.tells.2.trans (meets_iff_of_run hrun).symm
  advances := by
    have hafter : c.attempt.after u = u' :=
      Attempt.after_of_ok ((Attempt.bind_of_ok hrun).trans hweigh)
    exact ⟨d, v, hrun, hresult.advances, hafter ▸ hiteration⟩

theorem Turns.of_none (h : c.Turns flag u none u') : ¬c.Yields u ∧ ¬c.Meets u :=
  ⟨fun hyields => absurd (h.nothing_iff.2 hyields) nofun,
    fun hmeets => absurd (h.offers_iff.2 hmeets) nofun⟩

/-- An attempt is made of its draw and of what it makes of it. -/
theorem attempt_turns {R : Drawn V α → S × World M α → Prop} {P : S × World M α → Prop}
    (hdraw : Attempt.Ensures (· = u) c.draw (fun d v => c.Result flag u d v.1 ∧ R d v)
      (fun _ => False))
    (hweigh : ∀ d v, R d v → Attempt.Ensures (· = v) (c.weigh d)
      (fun answer u' => (c.Answers v d answer ∧ flag u'.1 = flag v.1 ∧
        c.iteration u'.1 = c.iteration v.1) ∧ P u') (fun _ => False)) :
    Attempt.Ensures (· = u) c.attempt (fun answer u' => P u' ∧ c.Turns flag u answer u')
      (fun _ => False) := by
  refine Attempt.ensures_bind_at (fun d v hrun => ?_) fun _ _ hrun => hdraw.of_error rfl hrun
  obtain ⟨hdraws, hR⟩ := hdraw.of_ok rfl hrun
  refine Attempt.ensures_of (fun _ answer u' hv hrun' => ?_) fun _ _ _ hv hrun' =>
    (hweigh d v hR).of_error hv hrun'
  subst hv
  obtain ⟨⟨hanswer, hflag, hiteration⟩, hP⟩ := (hweigh d _ hR).of_ok rfl hrun'
  exact ⟨hP, .of_run hrun hrun' hdraws hanswer hflag hiteration⟩

/-- The attempts of a strategy over a heuristic. `E` is what else is known of the strategy after the
draw, and `F` what it makes of the strategy after the attempt. -/
theorem attempt_turns_of_kept [Scalar α] {γ : Type} {view : S → Heuristic G α} {rest : S → γ}
    {I : G → Prop} {J : M → Prop} {E F : S → Prop} {k : Nat} {config : SequenceConfig}
    (hdraw : Attempt.Ensures (· = u) c.draw (fun d v => c.Result flag u d v.1 ∧
      (view v.1).Drew I d ∧ E v.1 ∧ J v.2.solution.model) (fun _ => False))
    (hanswers : ∀ {d v}, (view v.1).Drew I d → J v.2.solution.model →
      Attempt.Ensures (· = v) (c.weigh d) (fun answer _ => c.Answers v d answer) (fun _ => False))
    (hkept : ∀ d, Attempt.Fixes (Heuristic.kept view rest) (c.weigh d))
    (hrest : ∀ {t t'}, rest t' = rest t → flag t' = flag t ∧ c.iteration t' = c.iteration t)
    (hfit : Attempt.Ensures (· = u) c.attempt (fun _ u' => (view u'.1).notes.Fit k config)
      (fun u' => (view u'.1).notes.Fit k config))
    (hF : ∀ {t t'}, E t → rest t' = rest t → (view t').Reliable I k config → F t') :
    Attempt.Ensures (· = u) c.attempt
      (fun answer u' => (F u'.1 ∧ J u'.2.solution.model) ∧ c.Turns flag u answer u')
      (fun _ => False) := by
  have hturns : Attempt.Ensures (· = u) c.attempt
      (fun answer u' => ((∃ t, E t ∧ rest u'.1 = rest t) ∧ (view u'.1).sequence.Stocked I ∧
        J u'.2.solution.model) ∧ c.Turns flag u answer u') (fun _ => False) := by
    refine attempt_turns hdraw fun d v ⟨hdrew, hE, hJ⟩ => ?_
    refine ((hanswers hdrew hJ).and ((hkept d).at v)).mono (fun _ h => h)
      (fun answer u' ⟨hanswer, hsame⟩ => ?_) fun _ h => h.1
    obtain ⟨⟨hgenerators, hrest'⟩, hsolution⟩ :
        ((view u'.1).sequence.generators = (view v.1).sequence.generators ∧
          rest u'.1 = rest v.1) ∧ u'.2.solution = v.2.solution := by
      simpa only [Heuristic.kept, Prod.mk.injEq] using hsame
    refine ⟨⟨hanswer, hrest hrest'⟩, ⟨v.1, hE, hrest'⟩, ?_, ?_⟩
    · exact hdrew.stocked.of_generators_eq hgenerators
    · rw [hsolution]
      exact hJ
  refine (hturns.and hfit).mono (fun _ h => h) (fun answer u' hend => ?_) fun _ h => h.1
  obtain ⟨⟨⟨⟨t, hE, hrest'⟩, hstocked, hJ⟩, hturns⟩, hfit⟩ := hend
  exact ⟨⟨hF hE hrest' ⟨hfit, hstocked⟩, hJ⟩, hturns⟩

/-! ## Calls -/

variable (c) in
/-- What a call of at most `n` attempts does, with the draws it makes and those before it. -/
structure Call (n : Nat) (log draws : List (S × World M α)) (p? : Option (Proposal V α)) :
    Prop where
  length_le : draws.length ≤ n
  /-- Nothing is offered if the last draw yields, or if there were as many draws as there may be
  and none of them met anything to offer. -/
  none_iff : p? = none ↔ (∃ v earlier, draws = v :: earlier ∧ c.Yields v) ∨
    draws.length = n ∧ ∀ v ∈ draws, ¬c.Meets v
  yields_iff : ∀ later v earlier, draws = later ++ v :: earlier →
    (c.Yields v ↔ c.reheats v ∧ (c.nextOnReheat v.1 = true ∨ ¬c.Fertile (earlier ++ log)))
  advances : ∀ v ∈ draws, c.Advances v

variable {n : Nat} {log draws : List (S × World M α)} {p? : Option (Proposal V α)}

theorem Turns.fertile_iff (h : c.Turns flag u answer u') (hlog : flag u.1 = true ↔ c.Fertile log) :
    flag u'.1 = true ↔ c.Fertile (u :: log) := by
  rw [h.flag_iff, c.fertile_cons, hlog]

theorem Turns.yields_iff_fertile (h : c.Turns flag u answer u')
    (hlog : flag u.1 = true ↔ c.Fertile log) :
    c.Yields u ↔ c.reheats u ∧ (c.nextOnReheat u.1 = true ∨ ¬c.Fertile log) := by
  rw [h.yields_iff, ← hlog, Bool.not_eq_true]

/-- An attempt with an answer ends the call. -/
theorem Turns.call (h : c.Turns flag u (some p?) u') (hlog : flag u.1 = true ↔ c.Fertile log)
    (n : Nat) : c.Call (n + 1) log [u] p? where
  length_le := Nat.le_add_left 1 n
  none_iff := by
    have hnothing : p? = none ↔ c.Yields u := by rw [← h.nothing_iff, Option.some.injEq]
    constructor
    · exact fun hnone => .inl ⟨u, [], rfl, hnothing.1 hnone⟩
    · rintro (⟨v, earlier, hdraws, hv⟩ | ⟨-, hmeets⟩)
      · cases hdraws
        exact hnothing.2 hv
      · have hoffers := mt h.offers_iff.1 (hmeets u (List.mem_singleton_self u))
        exact Option.eq_none_iff_forall_ne_some.2 fun p hp => hoffers ⟨p, congrArg some hp⟩
  yields_iff later v earlier hdraws := by
    cases later with
    | nil =>
      cases hdraws
      exact h.yields_iff_fertile hlog
    | cons w later =>
      cases later with
      | nil => cases hdraws
      | cons _ _ => cases hdraws
  advances v hv := List.mem_singleton.1 hv ▸ h.advances

/-- An attempt without an answer leaves one attempt less. -/
theorem Call.snoc (hrest : c.Call n (u :: log) draws p?) (h : c.Turns flag u none u')
    (hlog : flag u.1 = true ↔ c.Fertile log) : c.Call (n + 1) log (draws ++ [u]) p? := by
  obtain ⟨hyields, hmeets⟩ := h.of_none
  refine ⟨?_, ?_, fun later v earlier hdraws => ?_, fun v hv => ?_⟩
  · rw [List.length_append, List.length_singleton]
    exact Nat.succ_le_succ hrest.length_le
  · rw [hrest.none_iff]
    refine or_congr ?_ ?_
    · cases draws with
      | nil =>
        constructor
        · rintro ⟨_, _, hnil, -⟩
          cases hnil
        · rintro ⟨v, earlier, hlast, hv⟩
          cases hlast
          exact absurd hv hyields
      | cons w rest =>
        constructor
        · rintro ⟨v, earlier, hlast, hv⟩
          cases hlast
          exact ⟨w, rest ++ [u], rfl, hv⟩
        · rintro ⟨v, earlier, hlast, hv⟩
          cases hlast
          exact ⟨w, rest, rfl, hv⟩
    · rw [List.length_append, List.length_singleton, Nat.add_right_cancel_iff,
        List.forall_mem_append, List.forall_mem_singleton]
      exact and_congr_right fun _ => ⟨fun hall => ⟨hall, hmeets⟩, fun hall => hall.1⟩
  · -- the first draw of the call is this one, or it is one of the rest
    rcases List.eq_nil_or_concat earlier with rfl | ⟨before, w, rfl⟩
    · obtain ⟨-, hlast⟩ := List.append_inj' hdraws rfl
      cases hlast
      exact h.yields_iff_fertile hlog
    · rw [List.concat_eq_append, ← List.cons_append, ← List.append_assoc] at hdraws
      obtain ⟨hbefore, hlast⟩ := List.append_inj' hdraws rfl
      cases hlast
      rw [List.concat_eq_append, List.append_assoc]
      exact hrest.yields_iff later v before hbefore
  · rcases List.mem_append.1 hv with hv | hv
    · exact hrest.advances v hv
    · exact List.mem_singleton.1 hv ▸ h.advances

theorem draws_succ_of_none (hrun : c.attempt u = .ok none u') :
    c.draws (n + 1) u = c.draws n u' ++ [u] := by
  simp only [Drawing.draws, Attempt.trail, hrun]

theorem draws_succ_of_some (hrun : c.attempt u = .ok (some p?) u') : c.draws (n + 1) u = [u] := by
  simp only [Drawing.draws, Attempt.trail, hrun, List.nil_append]

/-- What every attempt does makes up what the loop does. -/
theorem firstOf_calls {P : S × World M α → Prop}
    (h : ∀ u, P u → Attempt.Ensures (· = u) c.attempt
      (fun answer u' => P u' ∧ c.Turns flag u answer u') (fun _ => False))
    (n : Nat) (log : List (S × World M α)) (u : S × World M α) (hu : P u)
    (hlog : flag u.1 = true ↔ c.Fertile log) :
    Attempt.Ensures (· = u) (Attempt.firstOf c.attempt n)
      (fun answer u' => P u' ∧ (flag u'.1 = true ↔ c.Fertile (c.draws n u ++ log)) ∧
        c.Call n log (c.draws n u) answer.join)
      (fun _ => False) := by
  -- an attempt without an answer is in the log of the attempts after it
  induction n generalizing log u with
  | zero =>
    refine Attempt.ensures_pure fun u' hu' => ?_
    subst hu'
    exact ⟨hu, hlog, Nat.le_refl 0, iff_of_true rfl (.inr ⟨rfl, List.forall_mem_nil _⟩),
      fun later v earlier hdraws => absurd hdraws.symm
        (List.append_ne_nil_of_right_ne_nil later (List.cons_ne_nil v earlier)),
      List.forall_mem_nil _⟩
  | succ n ih =>
    unfold Attempt.firstOf
    refine Attempt.ensures_bind_at (fun answer u' hrun => ?_) fun _ _ hrun =>
      (h u hu).of_error rfl hrun
    obtain ⟨hu', hturns⟩ := (h u hu).of_ok rfl hrun
    cases answer with
    | none =>
      have hdraws : c.draws (n + 1) u = c.draws n u' ++ [u] := draws_succ_of_none hrun
      rw [hdraws, List.append_assoc]
      refine (ih (u :: log) u' hu' (hturns.fertile_iff hlog)).mono_post fun answer v hv => ?_
      exact ⟨hv.1, hv.2.1, hv.2.2.snoc hturns hlog⟩
    | some p? =>
      rw [draws_succ_of_some hrun]
      refine Attempt.ensures_pure fun v hv => ?_
      subst hv
      exact ⟨hu', hturns.fertile_iff hlog, hturns.call hlog n⟩

/-! ## Searches -/

section

variable [Strategy S M V α]

variable (c) in
/-- A strategy in a search, with the draws since it was prepared, the last one first. Every call
finds a model with `J`; between the calls the solution may change in any way. -/
inductive Since (J : M → Prop) (t₀ : S) : List (S × World M α) → S → Prop
  | init (w : World M α) {u : S × World M α}
    (hrun : (Strategy.init : Act S M α Unit) (t₀, w) = .ok () u) : Since J t₀ [] u.1
  /-- Another search with the same strategy. -/
  | again {log : List (S × World M α)} {t : S} (h : Since J t₀ log t) (w : World M α)
    {u : S × World M α} (hrun : (Strategy.init : Act S M α Unit) (t, w) = .ok () u) :
    Since J t₀ [] u.1
  | select {log : List (S × World M α)} {t : S} (h : Since J t₀ log t) (w : World M α)
    (hw : J w.solution.model) :
    Since J t₀ (c.draws maxAttempts (t, w) ++ log)
      ((Strategy.select : Act S M α (Option (Proposal V α))).after (t, w)).1
  | bestSaved {log : List (S × World M α)} {t : S} (h : Since J t₀ log t) :
    Since J t₀ log (Strategy.bestSaved M t)
  | resetScores {log : List (S × World M α)} {t : S} (h : Since J t₀ log t) :
    Since J t₀ log (Strategy.resetScores M t)

variable (c flag) in
/-- The attempts, the calls and what comes between them, of a strategy with `B` before a search and
with `F` in a search. -/
structure Governs (J : M → Prop) (B F : S → Prop) : Prop where
  prepared {t : S} : F t → B t
  init {t : S} {w : World M α} {u : S × World M α} : B t →
    (Strategy.init : Act S M α Unit) (t, w) = .ok () u → F u.1 ∧ flag u.1 = false
  attempt (u : S × World M α) : F u.1 ∧ J u.2.solution.model →
    Attempt.Ensures (· = u) c.attempt
      (fun answer u' => (F u'.1 ∧ J u'.2.solution.model) ∧ c.Turns flag u answer u')
      (fun _ => False)
  select (u : S × World M α) {Q : Option (Proposal V α) → S → Prop} :
    Attempt.Ensures (· = u) (Attempt.firstOf c.attempt maxAttempts)
      (fun answer u' => Q answer.join u'.1) (fun _ => False) →
    Attempt.Ensures (· = u) (Strategy.select : Act S M α (Option (Proposal V α)))
      (fun p? u' => Q p? u'.1) (fun _ => False)
  bestSaved {t : S} : F t → F (Strategy.bestSaved M t) ∧ flag (Strategy.bestSaved M t) = flag t
  resetScores {t : S} :
    F t → F (Strategy.resetScores M t) ∧ flag (Strategy.resetScores M t) = flag t

variable {J : M → Prop} {B F : S → Prop} {t₀ t : S}

theorem Governs.select_calls (h : c.Governs flag J B F) (ht : F t)
    (hlog : flag t = true ↔ c.Fertile log) {w : World M α} (hw : J w.solution.model) :
    Attempt.Ensures (· = (t, w)) (Strategy.select : Act S M α (Option (Proposal V α)))
      (fun p? u' => (F u'.1 ∧ (flag u'.1 = true ↔
          c.Fertile (c.draws maxAttempts (t, w) ++ log))) ∧
        c.Call maxAttempts log (c.draws maxAttempts (t, w)) p?)
      (fun _ => False) :=
  h.select (t, w) (Q := fun p? t' => (F t' ∧ (flag t' = true ↔
      c.Fertile (c.draws maxAttempts (t, w) ++ log))) ∧
    c.Call maxAttempts log (c.draws maxAttempts (t, w)) p?) <|
    (firstOf_calls h.attempt maxAttempts log (t, w) ⟨ht, hw⟩ hlog).mono_post
      fun _ _ hend => ⟨⟨hend.1.1, hend.2.1⟩, hend.2.2⟩

/-- In a search, the flag says whether the draws since the strategy was prepared are fertile. -/
theorem Governs.flag_iff (h : c.Governs flag J B F) (ht₀ : B t₀) (hsince : c.Since J t₀ log t) :
    F t ∧ (flag t = true ↔ c.Fertile log) := by
  have hstart {t : S} {w : World M α} {u : S × World M α} (ht : B t)
      (hrun : (Strategy.init : Act S M α Unit) (t, w) = .ok () u) :
      F u.1 ∧ (flag u.1 = true ↔ c.Fertile []) := by
    obtain ⟨hu, hflag⟩ := h.init ht hrun
    exact ⟨hu, by rw [hflag]; exact iff_of_false Bool.false_ne_true c.not_fertile_nil⟩
  induction hsince with
  | init w hrun => exact hstart ht₀ hrun
  | again _ w hrun ih => exact hstart (h.prepared ih.1) hrun
  | select _ w hw ih =>
    have hcalls := h.select_calls ih.1 ih.2 hw
    exact ((hcalls.mono (fun _ h => h) (fun _ _ hend => hend.1) fun _ h => h.elim).after rfl)
  | bestSaved _ ih =>
    obtain ⟨hF, hflag⟩ := h.bestSaved ih.1
    exact ⟨hF, hflag ▸ ih.2⟩
  | resetScores _ ih =>
    obtain ⟨hF, hflag⟩ := h.resetScores ih.1
    exact ⟨hF, hflag ▸ ih.2⟩

/-- Every call in a search gives an answer, which its draws and those before it decide. -/
theorem Governs.call (h : c.Governs flag J B F) (ht₀ : B t₀) (hsince : c.Since J t₀ log t)
    {w : World M α} (hw : J w.solution.model) :
    ∃ p? u', (Strategy.select : Act S M α (Option (Proposal V α))) (t, w) = .ok p? u' ∧
      c.Call maxAttempts log (c.draws maxAttempts (t, w)) p? := by
  obtain ⟨ht, hlog⟩ := h.flag_iff ht₀ hsince
  obtain ⟨p?, u', hrun, -, hcall⟩ := (h.select_calls ht hlog hw).exists_ok rfl
  exact ⟨p?, u', hrun, hcall⟩

end

end Drawing

end LocalSearch
