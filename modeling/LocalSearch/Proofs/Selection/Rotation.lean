import LocalSearch.Proofs.Selection.Frame
import LocalSearch.Proofs.Selection.Steps
import Mathlib.Data.List.Rotate
/-!
# Rotations

A call of an orchestrator is a walk of steps. If the stages stand for acceptance phases, it opens
with construction at most twice and a restart at most once, and then the stages have their turns
in the order of their ranks, each at most once, until one of them has something to offer.

* `Orchestrator.Walks`: the steps of a call, and `Orchestrator.steps_of_walks`: enough of them are
  the call.
* `Orchestrator.exists_turns`: the turns of the stages, by induction on the number of stages left.
* `Orchestrator.Course`: a walk from a phase on, and `Orchestrator.exists_course_afresh`,
  `Orchestrator.exists_course_restart`, `Orchestrator.exists_course_construction`: there is one.
* `Orchestrator.Round`: what a call is made of.
-/

namespace LocalSearch

open Act

namespace Orchestrator

variable {S M V α : Type}

/-! ## Plans -/

/-- An orchestrator with a plan, one of whose stages has the turn. -/
structure Follows (plan : List (Int × Phase)) (o : Orchestrator S α) : Prop where
  plan_eq : o.plan = plan
  current_lt : o.current < plan.length

variable {plan : List (Int × Phase)} {o o' : Orchestrator S α}

theorem Follows.length_eq (h : Follows plan o) : o.stages.length = plan.length := by
  rw [← h.plan_eq, length_plan]

theorem Restaged.follows (h : o.Restaged o') (ho : Follows plan o) : Follows plan o' := by
  refine ⟨h.plan_eq.trans ho.plan_eq, ?_⟩
  obtain ⟨_, -, rfl⟩ := h
  exact ho.current_lt

theorem Entered.follows {index : Nat} (h : Entered index o o') (hindex : index < plan.length)
    (ho : o.plan = plan) : Follows plan o' := by
  refine ⟨h.plan_eq.trans ho, ?_⟩
  obtain ⟨_, -, rfl⟩ := h
  exact hindex

theorem Entered.isAcceptance {index : Nat} (h : Entered index o o')
    (hplan : ∀ slot ∈ o.plan, slot.2.IsAcceptance) : o'.phase.IsAcceptance := by
  obtain ⟨stage, hstage, rfl⟩ := h
  exact hplan stage.slot (List.mem_map_of_mem (List.mem_of_getElem? (fetch_eq_ok_iff.1 hstage)))

/-! ## Walks -/

section

variable [Scalar α] [Model M V α] [Strategy S M V α]

/-- The states in which the steps of a call begin, and how the call ends: with an answer or a
failure, in a last state. -/
inductive Walks : Nat → Orchestrator S α × World M α → List (Orchestrator S α × World M α) →
    Except Failure (Option (Proposal V α)) → Orchestrator S α × World M α → Prop
  | answer {exhausted : Nat} {t t' : Orchestrator S α × World M α} {p? : Option (Proposal V α)}
    (h : phaseStep exhausted t = .ok (.ok p?) t') : Walks exhausted t [t] (.ok p?) t'
  | fail {exhausted : Nat} {t t' : Orchestrator S α × World M α} {e : Failure}
    (h : phaseStep exhausted t = .error e t') : Walks exhausted t [t] (.error e) t'
  | on {exhausted more : Nat} {t t' left : Orchestrator S α × World M α}
    {path : List (Orchestrator S α × World M α)} {answer : Except Failure (Option (Proposal V α))}
    (h : phaseStep exhausted t = .ok (.error more) t') (hrest : Walks more t' path answer left) :
    Walks exhausted t (t :: path) answer left

variable {exhausted : Nat} {t t' left : Orchestrator S α × World M α}
  {path : List (Orchestrator S α × World M α)} {answer : Except Failure (Option (Proposal V α))}

theorem Walks.ne_nil (h : Walks exhausted t path answer left) : path ≠ [] := by
  cases h <;> simp

/-- A call that is allowed as many steps as a walk has takes this walk. -/
theorem steps_of_walks (h : Walks exhausted t path answer left) {fuel : Nat}
    (hfuel : path.length ≤ fuel) :
    steps exhausted fuel t = Attempt.ofExcept answer left := by
  induction h generalizing fuel with
  | answer h =>
    obtain ⟨fuel, rfl⟩ := Nat.exists_eq_succ_of_ne_zero (Nat.ne_of_gt hfuel)
    rw [steps, Attempt.bind_of_ok h]
    rfl
  | fail h =>
    obtain ⟨fuel, rfl⟩ := Nat.exists_eq_succ_of_ne_zero (Nat.ne_of_gt hfuel)
    rw [steps, Attempt.bind_of_error h]
    rfl
  | on h _ ih =>
    obtain ⟨fuel, rfl⟩ := Nat.exists_eq_succ_of_ne_zero (Nat.ne_of_gt (Nat.zero_lt_of_lt hfuel))
    rw [steps, Attempt.bind_of_ok h]
    exact ih (Nat.le_of_succ_le_succ hfuel)

/-! ## The turns of the stages -/

/-- The indices of `n` stages in the order of their turns, if the first one is `first`. -/
def turnOrder (n first : Nat) : List Nat :=
  (List.range n).rotate first

theorem length_turnOrder (n first : Nat) : (turnOrder n first).length = n := by
  simp [turnOrder]

theorem nodup_turnOrder (n first : Nat) : (turnOrder n first).Nodup :=
  List.nodup_rotate.2 List.nodup_range

theorem drop_turnOrder {n first k : Nat} (hk : k < n) :
    (turnOrder n first).drop k = ((first + k) % n) :: (turnOrder n first).drop (k + 1) := by
  have hlength : k < (turnOrder n first).length := by rwa [length_turnOrder]
  rw [List.drop_eq_getElem_cons hlength]
  congr 1
  simp only [turnOrder, List.getElem_rotate, List.getElem_range, List.length_range, Nat.add_comm]

/-- The stages that have their turns at the end of a call: those that are left in the order. All of
them have nothing to offer, except that the last one may make the proposal that ends the call. The
call gives up only after all of them, and then it is again the turn of the first. -/
structure Served (plan : List (Int × Phase)) (first exhausted : Nat)
    (turns : List (Orchestrator S α × World M α)) (answer : Except Failure (Option (Proposal V α)))
    (left : Orchestrator S α × World M α) : Prop where
  phases : ∀ t ∈ turns, t.1.phase.IsAcceptance
  asked : turns.map (·.1.current) <+: (turnOrder plan.length first).drop exhausted
  silent : ∀ t ∈ turns.dropLast, ∃ t', ask t.1.current t = .ok (none : Option (Proposal V α)) t'
  offered : ∀ last p, turns.getLast? = some last → answer = .ok (some p) →
    ask last.1.current last = .ok (some p) left
  gaveUp : answer = .ok none →
    turns.map (·.1.current) = (turnOrder plan.length first).drop exhausted ∧
    (∀ t ∈ turns, ∃ t', ask t.1.current t = .ok (none : Option (Proposal V α)) t') ∧
    left.1.current = first ∧ left.1.rotation[first]? = some left.1.phase

variable {plan : List (Int × Phase)} {first : Nat} {turns : List (Orchestrator S α × World M α)}

omit [Scalar α] [Model M V α] in
/-- A call that neither gives up nor comes to a stage. -/
theorem Served.nil (h : answer ≠ .ok none) : Served plan first exhausted [] answer left where
  phases _ h := absurd h List.not_mem_nil
  asked := List.nil_prefix
  silent _ h := absurd h List.not_mem_nil
  offered _ _ h := by cases h
  gaveUp hnone := absurd hnone h

omit [Scalar α] [Model M V α] in
/-- No stage has two turns. -/
theorem Served.once (h : Served plan first exhausted turns answer left) :
    (turns.map (·.1.current)).Nodup :=
  h.asked.sublist.nodup ((List.drop_sublist _ _).nodup (nodup_turnOrder _ _))

omit [Scalar α] [Model M V α] in
/-- A turn that ends the call. -/
theorem Served.last (hphase : t.1.phase.IsAcceptance) (hexhausted : exhausted < plan.length)
    (hcurrent : t.1.current = (first + exhausted) % plan.length)
    (hoffer : ∀ p, answer = .ok (some p) → ask t.1.current t = .ok (some p) left)
    (hgaveUp : answer = .ok none → exhausted + 1 = plan.length ∧
      (∃ t', ask t.1.current t = .ok (none : Option (Proposal V α)) t') ∧
      left.1.current = first ∧ left.1.rotation[first]? = some left.1.phase) :
    Served plan first exhausted [t] answer left where
  phases t' ht' := List.mem_singleton.1 ht' ▸ hphase
  asked := by simp [drop_turnOrder hexhausted, hcurrent]
  silent _ h := absurd h List.not_mem_nil
  offered last p hlast hp := by
    obtain rfl : t = last := by simpa using hlast
    exact hoffer p hp
  gaveUp hnone := by
    obtain ⟨hcount, hask, hleft⟩ := hgaveUp hnone
    refine ⟨?_, fun t' ht' => List.mem_singleton.1 ht' ▸ hask, hleft⟩
    have hrest : (turnOrder plan.length first).drop (exhausted + 1) = [] :=
      List.drop_eq_nil_of_le (by rw [length_turnOrder, hcount])
    rw [drop_turnOrder hexhausted, hrest, List.map_singleton, hcurrent]

omit [Scalar α] [Model M V α] in
/-- A turn after which it is the turn of the next stage. -/
theorem Served.cons (hphase : t.1.phase.IsAcceptance) (hexhausted : exhausted < plan.length)
    (hcurrent : t.1.current = (first + exhausted) % plan.length)
    (hask : ∃ t', ask t.1.current t = .ok (none : Option (Proposal V α)) t') (hne : turns ≠ [])
    (h : Served plan first (exhausted + 1) turns answer left) :
    Served plan first exhausted (t :: turns) answer left where
  phases := List.forall_mem_cons.2 ⟨hphase, h.phases⟩
  asked := by
    rw [drop_turnOrder hexhausted, List.map_cons, hcurrent]
    exact List.cons_prefix_cons.2 ⟨rfl, h.asked⟩
  silent := by
    rw [List.dropLast_cons_of_ne_nil hne]
    exact List.forall_mem_cons.2 ⟨hask, h.silent⟩
  offered last p hlast := by
    obtain ⟨t₁, rest, rfl⟩ := List.exists_cons_of_ne_nil hne
    exact h.offered last p (by rwa [List.getLast?_cons_cons] at hlast)
  gaveUp hnone := by
    obtain ⟨horder, hasks, hleft⟩ := h.gaveUp hnone
    refine ⟨?_, List.forall_mem_cons.2 ⟨hask, hasks⟩, hleft⟩
    rw [drop_turnOrder hexhausted, List.map_cons, hcurrent, horder]

omit [Scalar α] [Model M V α] in
/-- A turn that fails leaves the plan, the phase and the count of restarts. -/
theorem Unturned.kept {o : Orchestrator S α} (h : Unturned t o) (ht : Follows plan t.1) :
    Follows plan o ∧ o.phase = t.1.phase ∧ o.restarts = t.1.restarts := by
  cases h with
  | asked h =>
    refine ⟨h.follows ht, ?_⟩
    obtain ⟨stages, -, rfl⟩ := h
    exact ⟨rfl, rfl⟩
  | @next o' h =>
    have ho' := h.follows ht
    refine ⟨⟨ho'.plan_eq, ?_⟩, ?_⟩
    · rw [← ho'.length_eq]
      exact Nat.mod_lt _ (ho'.length_eq ▸ Nat.zero_lt_of_lt ht.current_lt)
    · obtain ⟨stages, -, rfl⟩ := h
      exact ⟨rfl, rfl⟩

/-- The state after a stage had nothing to offer and the phase of the next one was entered. -/
structure Handed (plan : List (Int × Phase)) (t t' : Orchestrator S α × World M α) : Prop where
  follows : Follows plan t'.1
  phase : t'.1.phase.IsAcceptance
  current : t'.1.current = (t.1.current + 1) % plan.length
  rotation : t'.1.rotation[t'.1.current]? = some t'.1.phase
  restarts : t'.1.restarts = t.1.restarts

omit [Scalar α] [Model M V α] in
theorem handed_of_entered {t₁ : Orchestrator S α × World M α}
    (hplan : ∀ slot ∈ plan, slot.2.IsAcceptance) (ht : Follows plan t.1)
    (hask : ask t.1.current t = .ok (none : Option (Proposal V α)) t₁)
    (hentered : Entered ((t.1.current + 1) % t₁.1.stages.length) t₁.1 t'.1) :
    Handed plan t t' := by
  have hasked := restaged_of_ask hask
  have ht₁ := hasked.follows ht
  have hpos : 0 < plan.length := Nat.zero_lt_of_lt ht.current_lt
  rw [ht₁.length_eq] at hentered
  refine ⟨hentered.follows (Nat.mod_lt _ hpos) ht₁.plan_eq,
    hentered.isAcceptance (ht₁.plan_eq.symm ▸ hplan), ?_, hentered.rotation_eq, ?_⟩
  · obtain ⟨stage, -, h⟩ := hentered
    rw [h]
  · obtain ⟨stage, -, h⟩ := hentered
    obtain ⟨stages, -, h'⟩ := hasked
    rw [h, h']

/-- From the turn of a stage on the call is a walk through the turns that are left. It stays among
the acceptance phases and counts no restart. -/
theorem exists_turns (first exhausted : Nat) (hplan : ∀ slot ∈ plan, slot.2.IsAcceptance)
    (hfollows : Follows plan t.1) (hphase : t.1.phase.IsAcceptance) (hfirst : first < plan.length)
    (hexhausted : exhausted < plan.length)
    (hcurrent : t.1.current = (first + exhausted) % plan.length) :
    ∃ (turns : List _) (answer : Except Failure (Option (Proposal V α))) (left : _),
      Walks exhausted t turns answer left ∧ Served plan first exhausted turns answer left ∧
      Follows plan left.1 ∧ left.1.phase.IsAcceptance ∧ left.1.restarts = t.1.restarts := by
  -- by induction on the number of stages that have not had their turn
  induction hrest : plan.length - exhausted generalizing exhausted t with
  | zero => omega
  | succ rest ih =>
    have hturn := turn_spec (V := V) exhausted hphase
    cases hstep : (phaseStep exhausted t :
        EStateM.Result Failure _ (Except Nat (Option (Proposal V α)))) with
    | error e left =>
      obtain ⟨hleft, hsame, hcount⟩ := (hturn.of_error rfl hstep).kept hfollows
      exact ⟨[t], .error e, left, .fail hstep, .last hphase hexhausted hcurrent nofun nofun, hleft,
        hsame ▸ hphase, hcount⟩
    | ok r t' =>
      cases hturn.of_ok rfl hstep with
      | offers hask =>
        obtain ⟨hleft, hsame, hcount⟩ := (Unturned.asked (restaged_of_ask hask)).kept hfollows
        refine ⟨[t], _, t', .answer hstep, .last hphase hexhausted hcurrent ?_ nofun, hleft,
          hsame ▸ hphase, hcount⟩
        rintro p' ⟨⟩
        exact hask
      | @next t₁ _ hask hentered hcount =>
        have hhanded := handed_of_entered hplan hfollows hask hentered
        rw [((restaged_of_ask hask).follows hfollows).length_eq] at hcount
        obtain ⟨turns, answer, left, hwalks, hserved, hleft, haccept, hrestarts⟩ :=
          ih _ hhanded.follows hhanded.phase hcount
            (by rw [hhanded.current, hcurrent, Nat.mod_add_mod, Nat.add_assoc]) (by omega)
        exact ⟨t :: turns, answer, left, .on hstep hwalks,
          hserved.cons hphase hexhausted hcurrent ⟨t₁, hask⟩ hwalks.ne_nil, hleft, haccept,
          hrestarts.trans hhanded.restarts⟩
      | @last t₁ _ hask hentered hcount =>
        have hhanded := handed_of_entered hplan hfollows hask hentered
        rw [((restaged_of_ask hask).follows hfollows).length_eq] at hcount
        have hlast : exhausted + 1 = plan.length := Nat.le_antisymm hexhausted hcount
        -- after the last stage in the order it is the turn of the first one again
        have hback : t'.1.current = first := by
          rw [hhanded.current, hcurrent, Nat.mod_add_mod, Nat.add_assoc, hlast, Nat.add_mod_right,
            Nat.mod_eq_of_lt hfirst]
        exact ⟨[t], _, t', .answer hstep, .last hphase hexhausted hcurrent nofun fun _ =>
          ⟨hlast, ⟨t₁, hask⟩, hback, hback ▸ hhanded.rotation⟩, hhanded.follows, hhanded.phase,
          hhanded.restarts⟩

/-! ## The opening of a call -/

/-- A walk that opens in some of the given phases, in this order, before the stages have their
turns. Only a fault leaves it in the restart phase. -/
structure Course (plan : List (Int × Phase)) (phases : List Phase)
    (t : Orchestrator S α × World M α) (opening turns : List (Orchestrator S α × World M α))
    (answer : Except Failure (Option (Proposal V α))) (left : Orchestrator S α × World M α) :
    Prop where
  walks : Walks 0 t (opening ++ turns) answer left
  opened : opening.map (·.1.phase) <+: phases
  served : Served plan 0 0 turns answer left
  follows : Follows plan left.1
  phase : (∀ f, answer ≠ .error (.fault f)) → left.1.phase ≠ .restart
  restarts : left.1.restarts ≤ t.1.restarts + phases.count .restart

variable {phases : List Phase} {opening : List (Orchestrator S α × World M α)}

/-- The first stage takes over at once. -/
theorem exists_course_turns (hplan : ∀ slot ∈ plan, slot.2.IsAcceptance)
    (hfollows : Follows plan t.1) (hphase : t.1.phase.IsAcceptance) (hcurrent : t.1.current = 0) :
    ∃ turns answer left, Course (V := V) plan phases t [] turns answer left := by
  have hpos : 0 < plan.length := Nat.zero_lt_of_lt hfollows.current_lt
  obtain ⟨turns, answer, left, hwalks, hserved, hleft, haccept, hrestarts⟩ :=
    exists_turns (V := V) 0 0 hplan hfollows hphase hpos hpos
      (by simp [hcurrent])
  exact ⟨turns, answer, left, hwalks, List.nil_prefix, hserved, hleft, fun _ => haccept.2,
    hrestarts ▸ Nat.le_add_right _ _⟩

/-- The opening ends the call. -/
theorem Course.stop (h : Walks 0 t [t] answer left) (hanswer : answer ≠ .ok none)
    (hfollows : Follows plan left.1)
    (hphase : (∀ f, answer ≠ .error (.fault f)) → left.1.phase ≠ .restart)
    (hrestarts : left.1.restarts ≤ t.1.restarts + (t.1.phase :: phases).count .restart) :
    Course plan (t.1.phase :: phases) t [t] [] answer left where
  walks := h
  opened := List.cons_prefix_cons.2 ⟨rfl, List.nil_prefix⟩
  served := .nil hanswer
  follows := hfollows
  phase := hphase
  restarts := hrestarts

/-- The opening goes on. -/
theorem Course.cons (hstep : (phaseStep 0 t :
      EStateM.Result Failure _ (Except Nat (Option (Proposal V α)))) = .ok (.error 0) t')
    (hrestarts : t'.1.restarts = t.1.restarts + [t.1.phase].count .restart)
    (h : Course plan phases t' opening turns answer left) :
    Course plan (t.1.phase :: phases) t (t :: opening) turns answer left where
  walks := .on hstep h.walks
  opened := List.cons_prefix_cons.2 ⟨rfl, h.opened⟩
  served := h.served
  follows := h.follows
  phase := h.phase
  restarts := by
    have hle := h.restarts
    rw [hrestarts, Nat.add_assoc, ← List.count_append] at hle
    exact hle

section

variable {o : Orchestrator S α} {s : Solution M α}

omit [Scalar α] [Strategy S M V α] in
theorem follows_seen (h : Follows plan o) (construction : Construction α) :
    Follows plan (o.seen construction s).1 := by
  refine ⟨?_, ?_⟩
  · rw [Orchestrator.plan, seen, observe_stages]
    exact h.plan_eq
  · rw [seen, observe_current]
    exact h.current_lt

omit [Scalar α] [Strategy S M V α] in
/-- A step of construction that fails leaves the plan, the phase and the count of restarts. -/
theorem Unconstructed.kept {o' : Orchestrator S α} (h : Unconstructed o s o')
    (ho : Follows plan o) : Follows plan o' ∧ o'.phase = o.phase ∧ o'.restarts = o.restarts := by
  cases h with
  | early construction => exact ⟨⟨ho.plan_eq, ho.current_lt⟩, rfl, rfl⟩
  | stuck construction =>
    exact ⟨follows_seen ho construction, observe_phase _ _, observe_restarts _ _⟩
  | enters construction =>
    exact ⟨⟨(follows_seen ho construction).plan_eq, Nat.zero_lt_of_lt ho.current_lt⟩,
      observe_phase _ _, observe_restarts _ _⟩

end

/-- From construction on there is a walk, if there is one from a restart in case construction is
stuck. It is not in the first call after a restart. -/
theorem exists_course_of_stuck (phases : List Phase) (hplan : ∀ slot ∈ plan, slot.2.IsAcceptance)
    (hfollows : Follows plan t.1) (hphase : t.1.phase = .construction)
    (hstuck : ∀ t' : Orchestrator S α × World M α, t.1.lastUnassigned ≠ none →
      Follows plan t'.1 → t'.1.phase = .restart →
      ∃ opening turns answer left, Course (V := V) plan phases t' opening turns answer left) :
    ∃ opening turns answer left,
      Course (V := V) plan (.construction :: phases) t opening turns answer left := by
  have hcount : [t.1.phase].count .restart = 0 := by rw [hphase]; rfl
  have hspec := constructionStep_spec (M := M) (V := V) (s := t.2.solution) 0 hphase
  rw [← hphase]
  cases hstep : (phaseStep 0 t :
      EStateM.Result Failure _ (Except Nat (Option (Proposal V α)))) with
  | error e left =>
    obtain ⟨hleft, hsame, hrestarts⟩ := (hspec.of_error (s := t) ⟨rfl, rfl⟩ hstep).1.kept hfollows
    exact ⟨[t], [], .error e, left, .stop (.fail hstep) (by simp) hleft
      (fun _ => by rw [hsame, hphase]; decide) (hrestarts ▸ Nat.le_add_right _ _)⟩
  | ok r t' =>
    obtain ⟨o', w'⟩ := t'
    have hpost : Constructed 0 t.1 t.2.solution r o' := (hspec.of_ok (s := t) ⟨rfl, rfl⟩ hstep).1
    cases hpost with
    | stuck construction hseen =>
      have hobserved : t.1.lastUnassigned ≠ none := fun h => by
        rw [seen, observe_first (o := { t.1 with construction }) h] at hseen
        cases hseen
      have hseen := follows_seen (s := t.2.solution) hfollows construction
      obtain ⟨opening, turns, answer, left, hcourse⟩ :=
        hstuck ({ (t.1.seen construction t.2.solution).1 with phase := .restart }, w') hobserved
          ⟨hseen.plan_eq, hseen.current_lt⟩ rfl
      refine ⟨t :: opening, turns, answer, left, hcourse.cons hstep ?_⟩
      rw [hcount]
      exact observe_restarts _ _
    | offers construction =>
      have hseen := follows_seen (s := t.2.solution) hfollows construction
      refine ⟨[t], [], _, _, .stop (.answer hstep) (by simp) hseen ?_ ?_⟩
      · rw [seen, observe_phase]
        simp [hphase]
      · rw [seen, observe_restarts]
        exact Nat.le_add_right _ _
    | enters construction _ hentered =>
      have hseen := follows_seen (s := t.2.solution) hfollows construction
      obtain ⟨turns, answer, left, hcourse⟩ := exists_course_turns (t := (o', w')) hplan
        (hentered.follows (Nat.zero_lt_of_lt hfollows.current_lt) hseen.plan_eq)
        (hentered.isAcceptance (hseen.plan_eq.symm ▸ hplan)) hentered.current_eq
      refine ⟨[t], turns, answer, left, hcourse.cons hstep ?_⟩
      rw [hcount]
      exact hentered.restarts_eq.trans (observe_restarts _ _)

/-- A restart is followed by the first call of construction after it, which is not stuck. -/
theorem exists_course_restart (hplan : ∀ slot ∈ plan, slot.2.IsAcceptance)
    (hfollows : Follows plan t.1) (hphase : t.1.phase = .restart) :
    ∃ opening turns answer left,
      Course (V := V) plan [.restart, .construction] t opening turns answer left := by
  have hspec := restartStep_spec (M := M) (V := V) (s := t.2.solution) 0 hphase Attempt.ensures_any
  have hafresh : Follows plan (t.1.afresh M) :=
    ⟨(restaged_map t.1 (Strategy.resetScores M)).plan_eq.trans hfollows.plan_eq, hfollows.current_lt⟩
  cases hstep : (phaseStep 0 t :
      EStateM.Result Failure _ (Except Nat (Option (Proposal V α)))) with
  | error e left =>
    obtain ⟨f, rfl⟩ := restartStep_faults hphase hstep
    -- whether or not the stages have been reset, the restart is counted at most once
    have hleft : Follows plan left.1 ∧ left.1.restarts ≤ t.1.restarts + 1 := by
      rcases (hspec.of_error (s := t) ⟨rfl, rfl⟩ hstep).1 with ⟨h, -⟩ | ⟨h, -⟩
      · rw [h]
        exact ⟨hfollows, Nat.le_succ _⟩
      · rw [h]
        exact ⟨hafresh, Nat.le_refl _⟩
    refine ⟨[t], [], .error (.fault f), left, ?_⟩
    rw [← hphase]
    refine .stop (.fail hstep) nofun hleft.1 (fun h => absurd rfl (h f)) ?_
    rw [hphase]
    exact hleft.2
  | ok r t' =>
    obtain ⟨rfl, ho, -, -⟩ := hspec.of_ok (s := t) ⟨rfl, rfl⟩ hstep
    have hnone : t'.1.lastUnassigned = none := by rw [ho]; rfl
    obtain ⟨opening, turns, answer, left, hcourse⟩ := exists_course_of_stuck (t := t') []
      hplan (ho ▸ ⟨hafresh.plan_eq, hafresh.current_lt⟩) (by rw [ho])
      fun _ h => absurd hnone h
    rw [← hphase]
    refine ⟨t :: opening, turns, answer, left, hcourse.cons hstep ?_⟩
    rw [ho, hphase]
    rfl

/-- Construction opens a call, and a restart and construction again if it is stuck. -/
theorem exists_course_construction (hplan : ∀ slot ∈ plan, slot.2.IsAcceptance)
    (hfollows : Follows plan t.1) (hphase : t.1.phase = .construction) :
    ∃ opening turns answer left,
      Course (V := V) plan [.construction, .restart, .construction] t opening turns answer left :=
  exists_course_of_stuck _ hplan hfollows hphase fun _ _ hfollows hphase =>
    exists_course_restart hplan hfollows hphase

/-! ## A call -/

omit [Scalar α] [Model M V α] [Strategy S M V α] in
/-- The stage that is asked first in a call: the one whose turn it is, or after construction the
one of the lowest rank. -/
def firstAsked (o : Orchestrator S α) : Nat :=
  match o.phase with
  | .construction | .restart => 0
  | _ => o.current

omit [Scalar α] [Model M V α] [Strategy S M V α] in
theorem firstAsked_eq {o : Orchestrator S α} (h : o.phase.IsAcceptance) :
    o.firstAsked = o.current := by
  unfold firstAsked
  split
  · rename_i hphase
    exact absurd hphase h.1
  · rename_i hphase
    exact absurd hphase h.2
  · rfl

/-- What a call is made of: the steps that open it, unless it begins with the turn of a stage, and
the turns of the stages. -/
structure Round (o : Orchestrator S α) (w : World M α)
    (opening turns : List (Orchestrator S α × World M α))
    (answer : Except Failure (Option (Proposal V α))) (left : Orchestrator S α × World M α) :
    Prop where
  call : (select (o, w) : EStateM.Result Failure _ (Option (Proposal V α))) =
    Attempt.ofExcept answer left
  walks : Walks 0 (o, w) (opening ++ turns) answer left
  length_le : (opening ++ turns).length ≤ o.stages.length + 3
  opened : opening.map (·.1.phase) <:+: [.construction, .restart, .construction]
  opening_eq_nil : o.phase.IsAcceptance → opening = []
  served : Served o.plan o.firstAsked 0 turns answer left
  once : (turns.map (·.1.current)).Nodup
  restarts : left.1.restarts ≤ o.restarts + 1
  phase : (∀ f, answer ≠ .error (.fault f)) → left.1.phase ≠ .restart
  follows : Follows o.plan left.1
  stays : o.phase.IsAcceptance → left.1.phase.IsAcceptance

/-- Enough steps are allowed for a call. -/
theorem select_of_walks {o : Orchestrator S α} {w : World M α} (h : Walks 0 (o, w) path answer left)
    (hlength : path.length ≤ o.stages.length + 3) :
    select (o, w) = Attempt.ofExcept answer left := by
  refine steps_of_walks h (hlength.trans ?_)
  show o.stages.length + 3 ≤ (o.stages.length + 2) * (o.restartLimit + 4)
  nlinarith

/-- A call that opens in the construction or the restart phase. -/
theorem Course.round {o : Orchestrator S α} {w : World M α}
    (h : Course o.plan phases (o, w) opening turns answer left) (hphase : ¬ o.phase.IsAcceptance)
    (hphases : phases <:+: [.construction, .restart, .construction]) :
    Round o w opening turns answer left := by
  have hfirst : o.firstAsked = 0 := by
    unfold firstAsked
    split
    · rfl
    · rfl
    · rename_i hconstruction hrestart
      exact absurd ⟨hconstruction, hrestart⟩ hphase
  have hopened := h.opened.isInfix.trans hphases
  have hturns : turns.length ≤ o.stages.length := by
    simpa [length_turnOrder, length_plan] using h.served.asked.length_le
  have hlength : (opening ++ turns).length ≤ o.stages.length + 3 := by
    have hopening : opening.length ≤ 3 := by simpa using hopened.length_le
    rw [List.length_append]
    omega
  have hrestarts : phases.count .restart ≤ 1 := hphases.sublist.count_le _
  exact {
    call := select_of_walks h.walks hlength
    walks := h.walks
    length_le := hlength
    opened := hopened
    opening_eq_nil := fun haccept => absurd haccept hphase
    served := hfirst ▸ h.served
    once := h.served.once
    restarts := h.restarts.trans (Nat.add_le_add_left hrestarts _)
    phase := h.phase
    follows := h.follows
    stays := fun haccept => absurd haccept hphase }

/-- A call of an orchestrator whose stages stand for acceptance phases. -/
theorem exists_round {o : Orchestrator S α} (hplan : ∀ slot ∈ o.plan, slot.2.IsAcceptance)
    (hcurrent : o.current < o.plan.length) (w : World M α) :
    ∃ opening turns answer left, Round (V := V) o w opening turns answer left := by
  have hfollows : Follows o.plan o := ⟨rfl, hcurrent⟩
  by_cases haccept : o.phase.IsAcceptance
  · have hfirst := firstAsked_eq haccept
    obtain ⟨turns, answer, left, hwalks, hserved, hleft, hstays, hrestarts⟩ :=
      exists_turns (V := V) (t := (o, w)) o.firstAsked 0 hplan hfollows haccept
        (hfirst ▸ hcurrent) (Nat.zero_lt_of_lt hcurrent)
        (by rw [hfirst, Nat.add_zero, Nat.mod_eq_of_lt hcurrent])
    have hlength : turns.length ≤ o.stages.length := by
      simpa [length_turnOrder, length_plan] using hserved.asked.length_le
    exact ⟨[], turns, answer, left, {
      call := select_of_walks hwalks (hlength.trans (Nat.le_add_right _ _))
      walks := hwalks
      length_le := hlength.trans (Nat.le_add_right _ _)
      opened := List.nil_infix
      opening_eq_nil := fun _ => rfl
      served := hserved
      once := hserved.once
      restarts := hrestarts.le.trans (Nat.le_succ _)
      phase := fun _ => hstays.2
      follows := hleft
      stays := fun _ => hstays }⟩
  by_cases hphase : o.phase = .construction
  · obtain ⟨opening, turns, answer, left, h⟩ := exists_course_construction (V := V) (t := (o, w))
      hplan hfollows hphase
    exact ⟨opening, turns, answer, left, h.round haccept (List.infix_refl _)⟩
  · have hrestart : o.phase = .restart := by
      by_contra hne
      exact haccept ⟨hphase, hne⟩
    obtain ⟨opening, turns, answer, left, h⟩ := exists_course_restart (V := V) (t := (o, w))
      hplan hfollows hrestart
    exact ⟨opening, turns, answer, left, h.round haccept (List.suffix_cons _ _).isInfix⟩

/-! ## Reachable orchestrators -/

section

variable {o₀ o o' : Orchestrator S α}

/-- The state that a call leaves is that of its round. -/
theorem Round.after_eq {w : World M α} (h : Round (V := V) o w opening turns answer left) :
    (select : Act (Orchestrator S α) M α (Option (Proposal V α))).after (o, w) = left := by
  unfold Attempt.after
  rw [h.call]
  cases answer <;> rfl

/-- Between two preparations the plan stays, and an orchestrator among its stages stays there. -/
theorem follows_of_acts (hplan : ∀ slot ∈ plan, slot.2.IsAcceptance) (ho : Follows plan o)
    (hact : Strategy.Acts M o o') :
    Follows plan o' ∧ (o.phase.IsAcceptance → o'.phase.IsAcceptance) := by
  cases hact with
  | select w =>
    obtain ⟨opening, turns, answer, left, h⟩ := exists_round (V := V) (o := o)
      (ho.plan_eq.symm ▸ hplan) (ho.plan_eq.symm ▸ ho.current_lt) w
    show Follows plan (Attempt.after select (o, w)).1 ∧
      (_ → (Attempt.after select (o, w)).1.phase.IsAcceptance)
    rw [h.after_eq]
    exact ⟨ho.plan_eq ▸ h.follows, h.stays⟩
  | bestSaved => exact ⟨(restaged_map o (Strategy.bestSaved M)).follows ho, id⟩
  | resetScores => exact ⟨(restaged_map o (Strategy.resetScores M)).follows ho, id⟩

theorem follows_of_reaches (hplan : ∀ slot ∈ plan, slot.2.IsAcceptance) (ho : Follows plan o₀)
    (hreach : Strategy.Reaches M o₀ o) : Follows plan o := by
  induction hreach with
  | refl => exact ho
  | @init o w _ ih =>
    have hinit := init_restaged (M := M) (V := V) (o := o) (s := w.solution)
    have hpos : 0 < plan.length := Nat.zero_lt_of_lt ih.current_lt
    -- whether or not the preparation fails, the plan stays
    show Follows plan (Attempt.after init (o, w)).1
    unfold Attempt.after
    cases hrun : (init : Act (Orchestrator S α) M α Unit) (o, w) with
    | ok _ t =>
      obtain ⟨construction, h⟩ := hinit.of_ok (s := (o, w)) ⟨rfl, rfl⟩ hrun
      exact h.follows ⟨ih.plan_eq, hpos⟩
    | error _ t =>
      obtain ⟨construction, h⟩ := hinit.of_error (s := (o, w)) ⟨rfl, rfl⟩ hrun
      exact h.follows ⟨ih.plan_eq, ih.current_lt⟩
  | act _ hact ih => exact (follows_of_acts hplan ih hact).1

/-- An orchestrator whose enabled stages stand for acceptance phases, in any state that it may come
to, whatever its stages do. The stages are the enabled ones in the strict order of their ranks, and
a call that asks stages once goes on with them until the next preparation. A call is a round: it
takes at most three steps more than there are stages, restarts at most once, and asks the stages in
order from the one whose turn it is, each at most once. Only a fault leaves it at a restart, and it
offers nothing only after all stages had nothing to offer, which leaves the turn with the first of
them. -/
theorem select_round {construction : Construction α} {stages : List (Stage S)} {restartLimit : Nat}
    (hof : Orchestrator.of construction stages restartLimit = .ok o₀)
    (hstages : ∀ s ∈ stages, 0 ≤ s.rank → s.phase.IsAcceptance)
    (hreach : Strategy.Reaches M o₀ o) :
    (o.plan.Perm ((stages.filter fun s => 0 ≤ s.rank).map Stage.slot) ∧
      (o.plan.map Prod.fst).Pairwise (· < ·)) ∧
    (∀ o', o.phase.IsAcceptance → Relation.ReflTransGen (Strategy.Acts M) o o' →
      o'.phase.IsAcceptance) ∧
    ∀ w : World M α, ∃ opening turns answer left, Round (V := V) o w opening turns answer left := by
  have hnew := new_of hof
  have hplan : ∀ slot ∈ o₀.plan, slot.2.IsAcceptance := by
    intro slot hslot
    obtain ⟨stage, hstage, rfl⟩ := List.mem_map.1 (hnew.plan_perm.mem_iff.1 hslot)
    obtain ⟨hmem, hrank⟩ := List.mem_filter.1 hstage
    exact hstages stage hmem (by simpa using hrank)
  have hstart : Follows o₀.plan o₀ :=
    ⟨rfl, hnew.current_eq ▸ List.length_pos_iff.2 hnew.plan_ne_nil⟩
  have ho := follows_of_reaches hplan hstart hreach
  refine ⟨ho.plan_eq.symm ▸ ⟨hnew.plan_perm, hnew.ascending⟩, fun o' haccept hacts => ?_,
    exists_round (ho.plan_eq.symm ▸ hplan) (ho.plan_eq.symm ▸ ho.current_lt)⟩
  -- by induction on what is done with the orchestrator, along with its plan
  have hboth : Follows o₀.plan o' ∧ o'.phase.IsAcceptance := by
    induction hacts with
    | refl => exact ⟨ho, haccept⟩
    | tail _ hact ih => exact (follows_of_acts hplan ih.1 hact).imp_right fun h => h ih.2
  exact hboth.2

end

end

/-- Hill climbing that has nothing to propose on a single variable. -/
def resting : BasicStrategy (Generator Empty ℚ) ℚ :=
  .hillClimbing (.of ⟨[.of "swap" (.basic (.swap false)) 0], .fresh 1, {}, false⟩ 3)

/-- Two stages out of order and one that is disabled. -/
def restingStages : List (Stage (BasicStrategy (Generator Empty ℚ) ℚ)) :=
  [⟨2, .hillClimbing, resting⟩, ⟨-1, .restart, resting⟩, ⟨1, .greatDeluge, resting⟩]

/-- The rotation of the enabled ones. -/
def restingRotation : Orchestrator (BasicStrategy (Generator Empty ℚ) ℚ) ℚ where
  construction := .of .standard
  stages := [⟨1, .greatDeluge, resting⟩, ⟨2, .hillClimbing, resting⟩]
  phase := .construction
  current := 0
  restartLimit := 5
  lastUnassigned := none
  stalled := 0
  restarts := 0

/-- On a complete assignment a call asks both stages and gives up. -/
theorem select_round_resting :
    Orchestrator.of (.of .standard) restingStages 5 = .ok restingRotation ∧
    ∃ opening turns left, Round (V := Nat) restingRotation oneVariable opening turns (.ok none) left ∧
      turns.map (·.1.current) = [0, 1] := by
  have hof : Orchestrator.of (.of .standard) restingStages 5 = .ok restingRotation := by
    simp [Orchestrator.of, restingStages, restingRotation, List.mergeSort,
      List.MergeSort.Internal.splitInTwo, firstTie?]
  have hstages : ∀ s ∈ restingStages, 0 ≤ s.rank → s.phase.IsAcceptance := by
    simp [restingStages, Phase.IsAcceptance]
  obtain ⟨-, -, hround⟩ := select_round (M := Penalty ℚ) hof hstages .refl
  obtain ⟨opening, turns, answer, left, h⟩ := hround oneVariable
  have hnone : (Attempt.answer? (select : Act _ _ ℚ (Option (Proposal Nat ℚ)))
      (restingRotation, oneVariable)).map Option.isNone = some true := by decide +kernel
  unfold Attempt.answer? at hnone
  rw [h.call] at hnone
  obtain rfl : answer = .ok none := by
    cases answer with
    | error e => cases hnone
    | ok p? => cases p? with
      | none => rfl
      | some p => cases hnone
  exact ⟨hof, opening, turns, left, h, (h.served.gaveUp rfl).1⟩

end Orchestrator

end LocalSearch
