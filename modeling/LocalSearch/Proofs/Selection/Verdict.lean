import LocalSearch.Proofs.Model.Atomic
import LocalSearch.Proofs.Selection.Ballots
import LocalSearch.Proofs.Selection.Effect
/-!
# Two ways to decide on a change

A strategy decides on a move with a known effect when it is drawn, from the total value and the
effect. It hands out a lazy change with a rule that has copies of what the decision depends on, and
the rule decides on the changed model. In exact arithmetic both decide alike.

* `Model.Exact`: models whose effects add up.
* `LazyChange.apply_of_exact`, `LazyChange.commit_of_exact`: the numbers that a rule is shown, and
  that it decides.
* `Criterion.withStream`: a rule that draws from another random stream.
* `HillClimbing.weigh`, `GreatDeluge.weigh`, `SimulatedAnnealing.weigh`, `Group.weigh`: what an
  attempt makes of its draw.
* `LazyChange.Concurs`: the rule of a lazy change decides as the strategy does on the move.
-/

namespace LocalSearch

open Act
open Model.Tables (assigned)

/-! ## Models whose effects add up -/

section

variable {M V K : Type} [Field K] [LinearOrder K] [Scalar.Functions K] [Model M V K]
  [Model.Tabular M]

/-- The operations succeed, and assigning a value adds its effect to the total value. -/
structure Model.Exact (J : M → Prop) (D : Nat → V → Prop) : Prop extends Model.Serves J D where
  adds {m m' : M} {v : Nat} {x : V} {delta total : K} : J m → Model.delta m v x = .ok delta →
    Model.totalValue m = .ok total → Model.assign m v x = .ok m' →
      Model.totalValue m' = .ok (total + delta)

variable {J : M → Prop} {D : Nat → V → Prop} {m : M} {c : LazyChange V} {delta total : K}

/-- The changed model is shown with the sum of the total value before and the effect, and with the
effect. -/
theorem LazyChange.apply_of_exact (hJ : Model.Exact J D) (hm : J m)
    (hv : c.var < (assigned m).length) (hx : D c.var c.value)
    (hdelta : Model.delta m c.var c.value = .ok delta) (htotal : Model.totalValue m = .ok total) :
    ∃ made : M, c.apply m = .ok (total + delta, delta) made := by
  obtain ⟨made, hassign, -⟩ := hJ.assign hm hv hx
  have hafter : Model.totalValue made = .ok (total + delta) := hJ.adds hm hdelta htotal hassign
  have happly : Attempt.Ensures (· = m) (c.apply : Attempt M (K × K))
      (fun r _ => r = (total + delta, delta)) (fun _ => False) := by
    unfold LazyChange.apply
    refine Attempt.ensures_get_bind_at (Attempt.ensures_lift_bind_of_ok htotal ?_)
    refine Attempt.Ensures.bind (Q := fun _ m' => m' = made) ?_ fun _ => ?_
    · exact Model.ensures_put_of_ok fun _ h => ⟨made, h ▸ hassign, rfl⟩
    refine Attempt.ensures_get_bind_at (Attempt.ensures_lift_bind_of_ok hafter ?_)
    exact Attempt.ensures_pure fun _ _ => by rw [add_sub_cancel_left]
  obtain ⟨r, m', hrun, rfl⟩ := happly.exists_ok rfl
  exact ⟨m', hrun⟩

/-- So these numbers decide. -/
theorem LazyChange.commit_of_exact (hJ : Model.Exact J D) (hm : J m)
    (hv : c.var < (assigned m).length) (hx : D c.var c.value)
    (hdelta : Model.delta m c.var c.value = .ok delta) (htotal : Model.totalValue m = .ok total)
    (accept : K → K → Bool) :
    ∃ m' : M, c.commit (fun _ => accept) m =
      .ok (if accept (total + delta) delta then .applied delta else .rejected delta) m' := by
  have hready : ∀ m', m' = m → Model.Ready J (assigned m).length m' :=
    fun m' h => by rw [h]; exact ⟨hm, rfl⟩
  have hreturns := (c.commit_returns hJ.toServes hv hx fun _ => accept).mono_pre hready
  have hmeasured := c.commit_measured (m := m) fun _ => accept
  obtain ⟨r, m', hrun, -, made, before, after, hassign, hbefore, hafter, hr⟩ :=
    ((hreturns.and hmeasured).mono (fun _ h => h) (fun _ _ h => h) fun _ h => h.1).exists_ok rfl
  obtain rfl : before = total := Except.ok.inj (hbefore.symm.trans htotal)
  obtain rfl : after = before + delta :=
    Except.ok.inj (hafter.symm.trans (hJ.adds hm hdelta htotal hassign))
  rw [add_sub_cancel_left] at hr
  exact ⟨m', hr ▸ hrun⟩

omit [Model M V K] [Model.Tabular M] in
/-- Options of their own rows have penalties that add up. -/
theorem Penalty.exact_filled (table : List (List K)) :
    Model.Exact (Penalty.Filled table) (Penalty.Has table) where
  toServes := Penalty.serves_filled table
  adds {p p' v option delta total} _ hdelta htotal hassign := by
    obtain ⟨p₁, hcommit, hadds⟩ :=
      Penalty.commit_of_evaluated (m := ⟨v, some option, delta⟩) ⟨option, rfl, hdelta⟩
    have hmade : ChangeMove.commit ⟨v, some option, delta⟩ p = .ok () p' :=
      ChangeMove.commit_of_assign rfl hassign
    cases hcommit.symm.trans hmade
    rw [show p.totalValue = .ok total from htotal] at hadds
    exact hadds

omit [Model M V K] [Model.Tabular M] in
/-- The effect of placing an event is a difference of total values. -/
theorem Timetable.exact_sized :
    Model.Exact (M := Timetable K) (V := Placement K) Timetable.Sized fun _ _ => True where
  toServes := Timetable.serves_sized
  adds {t t' v p delta total} _ hdelta htotal hassign := by
    obtain ⟨t₁, hcommit, hdelta⟩ :=
      Timetable.commit_of_evaluated (m := ⟨v, some p, delta⟩) ⟨p, rfl, hdelta⟩
    have hmade : ChangeMove.commit ⟨v, some p, delta⟩ t = .ok () t' :=
      ChangeMove.commit_of_assign rfl hassign
    cases hcommit.symm.trans hmade
    cases htotal
    show Except.ok (t'.totalOf t'.assigned) = _
    rw [show delta = _ from hdelta, add_sub_cancel]

end

/-! ## Rules -/

section

variable {α : Type} [Scalar α]

omit [Scalar α] in
/-- The rule with another random stream for the annealing rule in it, if there is one. -/
def Criterion.withStream (random : Random.Stream) : Criterion α → Criterion α
  | nonWorsening => nonWorsening
  | underBound bound => underBound bound
  | annealing judge reference => annealing { judge with random } reference
  | group bound judge reference => group bound (judge.map fun j => { j with random }) reference

/-- Whether a change is accepted depends on one number of the random stream. -/
theorem Acceptance.accept_congr (a : Acceptance α) (delta : α) {random random' : Random.Stream}
    (h : (random.unit : α × Random.Stream).1 = (random'.unit : α × Random.Stream).1) :
    (a.accept delta random).1 = (a.accept delta random').1 := by
  unfold Acceptance.accept
  dsimp only
  split
  · rfl
  · dsimp only
    rw [h]

/-- The rule of a lazy change judges as the temperature does. -/
theorem AnnealingSchedule.accepts_eq_judge (s : AnnealingSchedule α) (total reference delta : α)
    {random random' : Random.Stream}
    (h : (random.unit : α × Random.Stream).1 = (random'.unit : α × Random.Stream).1) :
    LazyJudge.accepts ⟨s.acceptance, s.config.relative, random⟩ reference (total + delta) delta =
      (s.judge total reference delta random').1 :=
  s.acceptance.accept_congr _ h

end

/-! ## What an attempt makes of its draw -/

section

variable {S G M V α : Type} [Scalar α]

namespace HillClimbing

variable [MoveGenerator G M V α]

/-- The draw of an attempt, unless the strategy gives up. -/
def draw? : Act (HillClimbing G α) M α (Option (Drawn V α)) := do
  Act.change fun h => { h with iteration := h.iteration + 1 }
  let h ← Act.part
  if h.maxIdle ≤ h.idle then
    Act.report .debug "idle" fun _ => [
      ("strategy", .text "hill_climbing"), ("attempts", .count h.iteration)]
    Act.change restartCount
    return none
  some <$> onHeuristic drawCandidate

/-- What an attempt makes of its draw. -/
def weigh : Option (Drawn V α) → Act (HillClimbing G α) M α (Option (Option (Proposal V α)))
  | none => return some none
  | some .yield => return none
  | some .empty => return none
  | some (.candidate _ (.lazy c)) => return some (some (.lazy c .nonWorsening))
  | some (.candidate index (.eager m)) => do
    if m.delta ≤ 0 then
      onHeuristic do
        rewardMove index m.delta
        reportAccept "hill_climbing" index m.delta fun _ => []
      return some (some (.move m))
    else
      onHeuristic (Act.change Heuristic.fail)
      return none

theorem attempt_eq :
    (attempt : Act (HillClimbing G α) M α (Option (Option (Proposal V α)))) = draw? >>= weigh := by
  unfold attempt draw?
  simp only [bind_assoc]
  congr 1
  funext _
  congr 1
  funext h
  split
  · simp only [bind_assoc, pure_bind]
    rfl
  · rw [map_eq_pure_bind, bind_assoc]
    simp only [pure_bind]
    congr 1
    funext d
    rcases d with _ | _ | ⟨index, m | c⟩ <;> rfl

end HillClimbing

variable [MoveGenerator G M V α] [Model M V α]

omit [MoveGenerator G M V α] in
/-- What an attempt makes of its draw. -/
def GreatDeluge.weigh : Drawn V α → Act (GreatDeluge G α) M α (Option (Option (Proposal V α)))
  | .yield => return some none
  | .empty => return none
  | .candidate _ (.lazy c) => do
    return some (some (.lazy c (.underBound (← Act.part).schedule.bound)))
  | .candidate index (.eager m) => do
    let total ← Model.totalValue (← Act.solution).model
    if (← Act.part).schedule.accepts total m.delta then
      if m.delta ≤ 0 then
        Act.change fun d =>
          if d.schedule.coolInAccept then { d with schedule := d.schedule.cool } else d
        onHeuristic (rewardMove index m.delta)
      else
        onHeuristic (Act.change Heuristic.succeed)
      let bound := (← Act.part).schedule.bound
      onHeuristic (reportAccept "great_deluge" index m.delta fun _ => [
        ("bound", .outlined (Outline.optional Scalar.outline bound))])
      return some (some (.move m))
    else
      onHeuristic (Act.change Heuristic.fail)
      return none

theorem GreatDeluge.attempt_eq :
    (attempt : Act (GreatDeluge G α) M α (Option (Option (Proposal V α)))) = draw >>= weigh :=
  rfl

omit [MoveGenerator G M V α] in
/-- What an attempt makes of its draw. -/
def SimulatedAnnealing.weigh :
    Drawn V α → Act (SimulatedAnnealing G α) M α (Option (Option (Proposal V α)))
  | .yield => return some none
  | .empty => return none
  | .candidate _ (.lazy c) => do
    let reference ← (← Act.solution).referenceValue
    let seed ← Act.onWorld (modifyGet fun w =>
      let (seed, random) := w.random.next64
      (seed, { w with random }))
    let s := (← Act.part).schedule
    return some (some (.lazy c (.annealing
      ⟨s.acceptance, s.config.relative, .quick seed⟩ reference)))
  | .candidate index (.eager m) => do
    let reference ← (← Act.solution).referenceValue
    let total ← Model.totalValue (← Act.solution).model
    if ← accept total reference m.delta then
      if m.delta ≤ 0 then onHeuristic (rewardMove index m.delta)
      else onHeuristic (Act.change Heuristic.succeed)
      let temperature := (← Act.part).schedule.temperature
      onHeuristic (reportAccept "simulated_annealing" index m.delta fun _ => [
        ("temperature", .number temperature)])
      return some (some (.move m))
    else
      onHeuristic (Act.change Heuristic.fail)
      return none

theorem SimulatedAnnealing.attempt_eq :
    (attempt : Act (SimulatedAnnealing G α) M α (Option (Option (Proposal V α)))) =
      draw >>= weigh := by
  unfold attempt
  congr 1
  funext d
  rcases d with _ | _ | ⟨index, m | c⟩ <;> rfl

omit [MoveGenerator G M V α] in
/-- What an attempt makes of its draw. -/
def Group.weigh (reference : α) : Drawn V α → Act (Group G α) M α (Option (Proposal V α))
  | .yield => return none
  | .empty => return none
  | .candidate _ (.lazy c) => do return some (.lazy c (← criterion reference))
  | .candidate index (.eager m) => do
    match ← decide index m.delta reference with
    | .dropped => return none
    | .refused =>
      onHeuristic (Act.change Heuristic.fail)
      return none
    | .accepted =>
      onHeuristic (reportAccept "group" index m.delta fun _ => [])
      return some (.move m)

theorem Group.attempt_eq (reference : α) :
    (attempt reference : Act (Group G α) M α (Option (Proposal V α))) =
      onHeuristic drawCandidate >>= weigh reference :=
  rfl

omit [Scalar α] in
/-- With a total value there is a reference value. -/
theorem Solution.exists_referenceValue {s : Solution M α} {total : α}
    (h : Model.totalValue s.model = .ok total) : ∃ reference, s.referenceValue = .ok reference := by
  unfold Solution.referenceValue
  cases s.best with
  | some best => exact ⟨_, rfl⟩
  | none => exact ⟨_, h⟩

omit [MoveGenerator G M V α] in
theorem SimulatedAnnealing.weigh_lazy {t : SimulatedAnnealing G α × World M α} {reference : α}
    (index : Nat) (c : LazyChange V) (h : t.2.solution.referenceValue = .ok reference) :
    weigh (.candidate index (.lazy c)) t =
      .ok (some (some (.lazy c (.annealing ⟨t.1.schedule.acceptance, t.1.schedule.config.relative,
        .quick t.2.random.next64.1⟩ reference)))) (t.1, { t.2 with random := t.2.random.next64.2 }) :=
  (Attempt.lift_bind_of_ok h).trans rfl

omit [MoveGenerator G M V α] in
theorem Group.weigh_lazy (t : Group G α × World M α) (reference : α) (index : Nat)
    (c : LazyChange V) :
    weigh reference (.candidate index (.lazy c)) t =
      .ok (some (.lazy c (.group t.1.deluge.bound (t.1.annealing.map fun s =>
        ⟨s.acceptance, s.config.relative, .quick t.2.random.next64.1⟩) reference)))
        (t.1, { t.2 with random := t.2.random.next64.2 }) :=
  rfl

/-! ## The decision on a move -/

omit [Scalar α] [MoveGenerator G M V α] [Model M V α] in
/-- What is known of the answers of a run from a state. -/
theorem Act.Leads.answers {β : Type} {x : Act S M α β} {P : S → Solution M α → Prop}
    {Q : β → Prop} (h : Leads P x (fun b _ _ => Q b) (fun _ _ => False)) {t : S × World M α}
    (ht : P t.1 t.2.solution) : Attempt.Ensures (· = t) x (fun b _ => Q b) (fun _ => False) :=
  h.run ht

/-- A selector was picked that can be rewarded. -/
structure Heuristic.Ready (h : Heuristic G α) (index : Nat) : Prop where
  sound : h.notes.Sound
  picked : h.notes.Picked index h.notes.ended

section

variable {view : S → Heuristic G α} {put : S → Heuristic G α → S} {m : Move V α} {index : Nat}
  {P E : S → Solution M α → Prop}

omit [Scalar α] [MoveGenerator G M V α] [Model M V α] in
variable (view put) in
/-- An accepted move is reported and offered. -/
theorem offer_leads (strategy : String) (more : S → Unit → List (String × FieldValue α)) :
    Leads P
      (do
        let s ← part
        within view put (reportAccept strategy index m.delta (more s))
        return some (some (.move m)) : Act S M α (Option (Option (Proposal V α))))
      (fun answer _ _ => answer = some (some (.move m))) E := by
  refine leads_part_bind_any fun s => ?_
  refine Leads.bind (Q := fun _ _ _ => True) ?_ fun _ => leads_pure fun _ _ _ => rfl
  exact leads_within fun _ _ _ => reportAccept_leads (P := fun _ _ => True) _ _ _ _ |>.mono_pre
    fun _ _ _ => trivial

omit [Scalar α] [MoveGenerator G M V α] [Model M V α] in
/-- A refused move gives no answer. -/
theorem refuse_leads :
    Leads P
      (do
        within view put (change Heuristic.fail)
        return none : Act S M α (Option (Option (Proposal V α))))
      (fun answer _ _ => answer = none) E := by
  refine Leads.bind (Q := fun _ _ _ => True) ?_ fun _ => leads_pure fun _ _ _ => rfl
  exact leads_within fun _ _ _ => leads_change fun _ _ _ => trivial

omit [MoveGenerator G M V α] [Model M V α] in
/-- A reward does not fail. -/
theorem leads_reward {n : Notes α} (hn : n.Sound) (hpicked : n.Picked index n.ended)
    (delta : α) :
    Leads (fun s _ => (view s).notes = n)
      (within view put (rewardMove index delta) : Act S M α Unit) (fun _ _ _ => True) E :=
  leads_within fun _ _ hs => ((rewardMove_leads hn hpicked delta).mono_post
    fun _ _ _ _ => trivial).at hs

end

omit [MoveGenerator G M V α] [Model M V α] in
theorem HillClimbing.weigh_eager {t : HillClimbing G α × World M α} {index : Nat}
    (ht : t.1.heuristic.Ready index) (m : Move V α) :
    Attempt.Ensures (· = t) (weigh (some (.candidate index (.eager m))))
      (fun answer _ => answer = if m.delta ≤ 0 then some (some (.move m)) else none)
      (fun _ => False) := by
  refine Leads.answers (P := fun (h : HillClimbing G α) _ =>
    h.heuristic.notes = t.1.heuristic.notes) ?_ rfl
  dsimp only [weigh]
  split
  · refine Leads.bind (Q := fun _ _ _ => True) ?_ fun _ => leads_pure fun _ _ _ => rfl
    refine leads_within fun _ _ hs => ?_
    refine ((rewardMove_leads ht.sound ht.picked m.delta).at hs).bind fun _ => ?_
    exact (reportAccept_leads (P := fun _ _ => True) _ _ _ _).mono_pre fun _ _ _ => trivial
  · exact refuse_leads

omit [MoveGenerator G M V α] in
theorem GreatDeluge.weigh_eager {t : GreatDeluge G α × World M α} {index : Nat} {total : α}
    (ht : t.1.heuristic.Ready index) (htotal : Model.totalValue t.2.solution.model = .ok total)
    (m : Move V α) :
    Attempt.Ensures (· = t) (weigh (.candidate index (.eager m)))
      (fun answer _ =>
        answer = if t.1.schedule.accepts total m.delta then some (some (.move m)) else none)
      (fun _ => False) := by
  refine Leads.answers (P := At t.1 t.2.solution) ?_ ⟨rfl, rfl⟩
  unfold weigh
  refine leads_solution_bind_at (leads_lift_bind_of_ok htotal (leads_part_bind_at ?_))
  split
  · dsimp only
    split
    · refine Leads.bind (Q := fun _ d _ => d.heuristic.notes = t.1.heuristic.notes)
        (leads_change fun d _ hd => ?_) fun _ => ?_
      · rw [hd.1]
        split <;> rfl
      refine Leads.bind (leads_reward ht.sound ht.picked m.delta) fun _ => ?_
      exact offer_leads heuristic _ _ _
    · refine Leads.bind (Q := fun _ _ _ => True) ?_ fun _ => offer_leads heuristic _ _ _
      exact leads_within fun _ _ _ => leads_change fun _ _ _ => trivial
  · exact refuse_leads

omit [MoveGenerator G M V α] [Model M V α] in
theorem SimulatedAnnealing.accept_ensures (t : SimulatedAnnealing G α × World M α)
    (total reference delta : α) :
    Attempt.Ensures (· = t) (accept total reference delta)
      (fun accepted s => s.1.heuristic.notes = t.1.heuristic.notes ∧
        accepted = (t.1.schedule.judge total reference delta t.2.random).1)
      (fun _ => False) := by
  unfold accept
  refine Attempt.ensures_get_bind_at ?_
  refine Attempt.Ensures.bind (Q := fun _ s => s.1.heuristic.notes = t.1.heuristic.notes)
    (Attempt.ensures_set fun _ _ => rfl) fun _ => Attempt.ensures_pure fun _ hs => ⟨hs, rfl⟩

omit [MoveGenerator G M V α] in
theorem SimulatedAnnealing.weigh_eager {t : SimulatedAnnealing G α × World M α} {index : Nat}
    {total reference : α} (ht : t.1.heuristic.Ready index)
    (hreference : t.2.solution.referenceValue = .ok reference)
    (htotal : Model.totalValue t.2.solution.model = .ok total) (m : Move V α) :
    Attempt.Ensures (· = t) (weigh (.candidate index (.eager m)))
      (fun answer _ => answer =
        if (t.1.schedule.judge total reference m.delta t.2.random).1 then some (some (.move m))
        else none)
      (fun _ => False) := by
  unfold weigh
  refine Attempt.ensures_get_bind_at (Attempt.ensures_lift_bind_of_ok hreference ?_)
  refine Attempt.ensures_get_bind_at (Attempt.ensures_lift_bind_of_ok htotal ?_)
  refine (accept_ensures t total reference m.delta).bind fun accepted => ?_
  refine Attempt.ensures_of_at fun s ⟨hnotes, haccepted⟩ => ?_
  rw [← haccepted]
  refine Leads.answers (P := fun (a : SimulatedAnnealing G α) _ =>
    a.heuristic.notes = t.1.heuristic.notes) ?_ hnotes
  split
  · dsimp only
    split
    · refine Leads.bind (leads_reward ht.sound ht.picked m.delta) fun _ => ?_
      exact offer_leads heuristic _ _ _
    · refine Leads.bind (Q := fun _ _ _ => True) ?_ fun _ => offer_leads heuristic _ _ _
      exact leads_within fun _ _ _ => leads_change fun _ _ _ => trivial
  · exact refuse_leads

namespace Group

omit [MoveGenerator G M V α] [Model M V α] in
theorem decideByDeluge_leads {g : Group G α} {sol : Solution M α} {index : Nat}
    (hg : g.heuristic.Ready index) (delta total reference : α) :
    Leads (At g sol) (decideByDeluge index delta total reference : Act (Group G α) M α Bool)
      (fun accepted _ _ => accepted = g.deluge.accepts total delta) (fun _ _ => False) := by
  have hadvance :
      Leads (fun _ _ => True)
        (advanceDeluge reference >>= fun _ => pure true : Act (Group G α) M α Bool)
        (fun accepted _ _ => accepted = true) (fun _ _ => False) := by
    refine leads_of_at fun g sol _ => ?_
    exact (advanceDeluge_leads reference g sol).bind fun _ => leads_pure fun _ _ _ => rfl
  unfold decideByDeluge
  refine leads_part_bind_at ?_
  dsimp only
  cases haccepts : g.deluge.accepts total delta with
  | false => exact leads_pure fun _ _ _ => rfl
  | true =>
    rw [if_neg (by decide)]
    split
    · refine leads_solution_bind_any fun sol => ?_
      refine Leads.bind (Q := fun _ _ _ => True) ?_ fun _ => hadvance
      refine leads_within fun _ _ hat => ?_
      refine Attempt.ensures_focus fun t ht => Attempt.ensures_update_of_ok fun h hh => ?_
      obtain ⟨h', himprove, -⟩ :=
        Heuristic.exists_improve hg.sound hg.picked .count delta sol.time
      have hstart : h = g.heuristic := by rw [hh, ht.1, hat.1]
      exact ⟨h', hstart ▸ himprove, trivial⟩
    · exact hadvance.mono_pre fun _ _ _ => trivial

omit [MoveGenerator G M V α] in
theorem decideByVote_leads (t : Group G α × World M α) (s : AnnealingSchedule α)
    (delta total reference : α) :
    Attempt.Ensures (· = t) (decideByVote s delta total reference)
      (fun decision _ => decision.wins = if vote α (t.1.deluge.accepts total delta)
        (s.judge total reference delta t.2.random).1 then 1 else 0)
      (fun _ => False) := by
  unfold decideByVote
  refine Attempt.ensures_get_bind_at ?_
  dsimp only
  refine Attempt.Ensures.bind (Q := fun _ _ => True) (Attempt.ensures_set fun _ _ => trivial)
    fun _ => ?_
  cases hvote : vote α (t.1.deluge.accepts total delta)
    (s.judge total reference delta t.2.random).1 with
  | false => exact Attempt.ensures_pure fun _ _ => rfl
  | true =>
    rw [if_neg (by decide)]
    -- whether the move is dropped or not, it has won
    refine Attempt.ensures_of_at fun _ _ => Leads.answers (P := fun _ _ => True) ?_ trivial
    refine Leads.bind (Q := fun _ _ _ => True) ?_ fun turn => ?_
    · refine leads_within fun _ sol _ => (AnnealingSchedule.step_leads s sol).mono_post ?_
      exact fun _ _ _ _ => trivial
    refine Leads.bind (Q := fun _ _ _ => True) ?_ fun _ => ?_
    · refine leads_of_at fun g sol _ => (advanceDeluge_leads reference g sol).mono_post ?_
      exact fun _ _ _ _ => trivial
    split
    · exact leads_pure fun _ _ _ => rfl
    · refine Leads.bind (Q := fun _ _ _ => True) (leads_change fun _ _ _ => trivial) fun _ => ?_
      exact leads_pure fun _ _ _ => rfl

/-- The vote on a move. -/
def approves (t : Group G α × World M α) (total reference delta : α) : Bool :=
  match t.1.annealing with
  | some s => vote α (t.1.deluge.accepts total delta) (s.judge total reference delta t.2.random).1
  | none => t.1.deluge.accepts total delta

omit [MoveGenerator G M V α] in
/-- A move that is approved wins, and no other one. -/
theorem decide_wins {t : Group G α × World M α} {index : Nat} {total : α}
    (ht : t.1.heuristic.Ready index) (htotal : Model.totalValue t.2.solution.model = .ok total)
    (delta reference : α) :
    Attempt.Ensures (· = t) (decide index delta reference)
      (fun decision _ => decision.wins = if approves t total reference delta then 1 else 0)
      (fun _ => False) := by
  unfold decide approves
  refine Attempt.ensures_get_bind_at (Attempt.ensures_lift_bind_of_ok htotal ?_)
  refine ensures_whole_part_bind ?_
  cases t.1.annealing with
  | some s => exact decideByVote_leads t s delta total reference
  | none =>
    refine Leads.answers (P := At t.1 t.2.solution) ?_ ⟨rfl, rfl⟩
    refine (decideByDeluge_leads ht delta total reference).bind fun accepted => ?_
    refine leads_pure fun _ _ haccepted => ?_
    rw [← haccepted]
    cases accepted <;> rfl

end Group

end

/-! ## Both decisions -/

section

variable {S G M V K A : Type} [Field K] [LinearOrder K] [Scalar.Functions K] [Model M V K]

/-- In a state the rule of a lazy change decides as the strategy does on the move that makes the
same change. `lazily` is what an attempt makes of the lazy change: it answers with a rule. `eagerly`
says whether the move is accepted. When the rule is applied, by the commit, it has the random number
that was there for the decision on the move. -/
def LazyChange.Concurs (t : S × World M K) (c : LazyChange V) (delta : K)
    (lazily : Act S M K A) (offer : Criterion K → A) (eagerly : Act S M K Bool) : Prop :=
  ∃ rule t₁ accepted t₂, lazily t = .ok (offer rule) t₁ ∧ t₁.2.solution = t.2.solution ∧
    eagerly t = .ok accepted t₂ ∧
    ∀ random : Random.Stream,
      (random.unit : K × Random.Stream).1 = (t.2.random.unit : K × Random.Stream).1 →
        ∃ model, (Proposal.lazy c (rule.withStream random)).commit t.2.solution.model =
          .ok (if accepted then .applied delta else .rejected delta) model

variable [Model.Tabular M] {J : M → Prop} {D : Nat → V → Prop} {t t₁ : S × World M K}
  {c : LazyChange V} {delta total : K}

/-- It is enough that the rule says the same of the two numbers that it is shown. -/
theorem LazyChange.concurs_of_accepts (hJ : Model.Exact J D) (hm : J t.2.solution.model)
    (hv : c.var < (assigned t.2.solution.model).length) (hx : D c.var c.value)
    (hdelta : Model.delta t.2.solution.model c.var c.value = .ok delta)
    (htotal : Model.totalValue t.2.solution.model = .ok total)
    {lazily : Act S M K A} {offer : Criterion K → A} {eagerly : Act S M K Bool}
    (rule : Criterion K) {accepted : Bool} (hlazily : lazily t = .ok (offer rule) t₁)
    (hsolution : t₁.2.solution = t.2.solution)
    (heagerly : Attempt.Ensures (· = t) eagerly (fun b _ => b = accepted) (fun _ => False))
    (haccepts : ∀ random : Random.Stream,
      (random.unit : K × Random.Stream).1 = (t.2.random.unit : K × Random.Stream).1 →
        (rule.withStream random).accepts (total + delta) delta = accepted) :
    c.Concurs t delta lazily offer eagerly := by
  obtain ⟨b, t₂, hrun, rfl⟩ := heagerly.exists_ok rfl
  refine ⟨rule, t₁, b, t₂, hlazily, hsolution, hrun, fun random hrandom => ?_⟩
  obtain ⟨model, hcommit⟩ := LazyChange.commit_of_exact hJ hm hv hx hdelta htotal
    fun total delta => (rule.withStream random).accepts total delta
  rw [haccepts random hrandom] at hcommit
  exact ⟨model, hcommit⟩

omit [Field K] [LinearOrder K] [Scalar.Functions K] [Model M V K] [Model.Tabular M] in
/-- A strategy that answers with the move or not at all. -/
theorem ensures_isSome {β : Type} {x : Act S M K (Option β)} {p : Prop} [Decidable p] {b : β}
    (h : Attempt.Ensures (· = t) x (fun answer _ => answer = if p then some b else none)
      (fun _ => False)) :
    Attempt.Ensures (· = t) (Option.isSome <$> x) (fun accepted _ => accepted = decide p)
      (fun _ => False) := by
  refine (h.mono_post fun answer _ hanswer => ?_).map
  rw [hanswer]
  by_cases hp : p <;> simp [hp]

variable [MoveGenerator G M V K]

/-- Whatever the strategy, the state of its schedules and the solution: the rule that goes along with
a lazy change accepts it if and only if the strategy accepts the move that makes the same change. The
rule is shown the changed total value and the effect of the change, which are the numbers that the
strategy decides on. -/
theorem LazyChange.concurs (hJ : Model.Exact J D) {w : World M K} (hw : J w.solution.model)
    {c : LazyChange V} (hv : c.var < (assigned w.solution.model).length) (hx : D c.var c.value)
    {m : ChangeMove V K} (hm : ChangeMove.of w.solution.model c.var c.value = .ok m)
    (index : Nat) :
    (∃ (total : K) (made : M), Model.totalValue w.solution.model = .ok total ∧
      c.apply w.solution.model = .ok (total + m.delta, m.delta) made ∧
      ∀ (s : AnnealingSchedule K) (reference : K), s.judgedDelta total reference m.delta =
        if s.config.relative then m.delta else total + m.delta - reference) ∧
    (HillClimbing.attempt (G := G) (M := M) = HillClimbing.draw? >>= HillClimbing.weigh ∧
      ∀ h : HillClimbing G K, h.heuristic.Ready index →
        c.Concurs (h, w) m.delta (HillClimbing.weigh (some (.candidate index (.lazy c))))
          (fun rule => some (some (.lazy c rule)))
          (Option.isSome <$> HillClimbing.weigh (some (.candidate index (.eager (.change m)))))) ∧
    (GreatDeluge.attempt (G := G) (M := M) = GreatDeluge.draw >>= GreatDeluge.weigh ∧
      ∀ d : GreatDeluge G K, d.heuristic.Ready index →
        c.Concurs (d, w) m.delta (GreatDeluge.weigh (.candidate index (.lazy c)))
          (fun rule => some (some (.lazy c rule)))
          (Option.isSome <$> GreatDeluge.weigh (.candidate index (.eager (.change m))))) ∧
    (SimulatedAnnealing.attempt (G := G) (M := M) =
        SimulatedAnnealing.draw >>= SimulatedAnnealing.weigh ∧
      ∀ a : SimulatedAnnealing G K, a.heuristic.Ready index →
        c.Concurs (a, w) m.delta (SimulatedAnnealing.weigh (.candidate index (.lazy c)))
          (fun rule => some (some (.lazy c rule)))
          (Option.isSome <$> SimulatedAnnealing.weigh (.candidate index (.eager (.change m))))) ∧
    ∀ reference : K,
      Group.attempt (G := G) (M := M) reference =
          Group.onHeuristic drawCandidate >>= Group.weigh reference ∧
        ∀ g : Group G K, g.heuristic.Ready index →
          c.Concurs (g, w) m.delta (Group.weigh reference (.candidate index (.lazy c)))
            (fun rule => some (.lazy c rule))
            ((fun decision => decision.wins == 1) <$> Group.decide index m.delta reference) := by
  obtain ⟨delta, hdelta, hmove⟩ := bind_eq_ok_iff.1 hm
  cases hmove
  obtain ⟨total, htotal⟩ := hJ.total hw
  refine ⟨?_, ⟨HillClimbing.attempt_eq, fun h hh => ?_⟩, ⟨GreatDeluge.attempt_eq, fun d hd => ?_⟩,
    ⟨SimulatedAnnealing.attempt_eq, fun a ha => ?_⟩,
    fun reference => ⟨Group.attempt_eq reference, fun g hg => ?_⟩⟩
  · obtain ⟨made, hmade⟩ := LazyChange.apply_of_exact hJ hw hv hx hdelta htotal
    exact ⟨total, made, htotal, hmade, fun _ _ => rfl⟩
  · refine concurs_of_accepts hJ hw hv hx hdelta htotal .nonWorsening rfl rfl
      (ensures_isSome (HillClimbing.weigh_eager hh _)) fun _ _ => rfl
  · refine concurs_of_accepts hJ hw hv hx hdelta htotal (.underBound d.schedule.bound) rfl rfl
      (ensures_isSome (GreatDeluge.weigh_eager hd htotal _)) fun _ _ => ?_
    exact Bool.decide_eq_true.symm
  · obtain ⟨reference, hreference⟩ := Solution.exists_referenceValue htotal
    refine concurs_of_accepts hJ hw hv hx hdelta htotal _
      (SimulatedAnnealing.weigh_lazy (t := (a, w)) index c hreference) rfl
      (ensures_isSome (SimulatedAnnealing.weigh_eager ha hreference htotal _)) fun random hrandom => ?_
    rw [Bool.decide_eq_true]
    exact a.schedule.accepts_eq_judge total reference delta hrandom
  · have hwins : Attempt.Ensures (· = (g, w)) (Group.decide index delta reference)
        (fun decision _ => (decision.wins == 1) = Group.approves (g, w) total reference delta)
        (fun _ => False) := by
      refine (Group.decide_wins hg htotal delta reference).mono_post fun decision _ hdecision => ?_
      rw [hdecision]
      cases Group.approves (g, w) total reference delta <;> rfl
    refine concurs_of_accepts hJ hw hv hx hdelta htotal _
      (Group.weigh_lazy (g, w) reference index c) rfl hwins.map fun random hrandom => ?_
    unfold Group.approves
    dsimp only
    cases g.annealing with
    | some s =>
      exact congrArg (vote K _) (s.accepts_eq_judge total reference delta hrandom)
    | none => rfl

end

/-- Two variables with the cheapest of their options. -/
def World.settled : World (Penalty ℚ) ℚ :=
  .ofSolution (.ofModel ⟨[[0, 1], [0]], [some 0, some 0], none, 0⟩) (.standard 0) none

/-- A heuristic over one selector, which was picked. -/
def Heuristic.single : Heuristic (Generator Empty ℚ) ℚ :=
  ⟨⟨[.of "change" (.basic (.change false)) 0], .fresh 1, {}, true⟩, .of 3⟩

theorem Heuristic.single_ready : Heuristic.single.Ready 0 where
  sound := {
    covers := Scores.covers_fresh 1
    lt_count := nofun
    length_lt := by decide
    failures_lt := by decide
    nodup := fun _ => List.nodup_nil }
  picked := {
    lt_count := by decide
    notMem := nofun
    length_lt := nofun }

/-- A change to a dearer option, under any water level and with any temperature. -/
theorem LazyChange.concurs_dearer :
    Heuristic.single.Ready 0 ∧
    (∀ schedule : DelugeSchedule ℚ,
      (LazyChange.mk 0 1).Concurs (⟨.single, schedule, false, false, false⟩, World.settled) (1 - 0)
        (GreatDeluge.weigh (.candidate 0 (.lazy ⟨0, 1⟩))) (fun rule => some (some (.lazy ⟨0, 1⟩ rule)))
        (Option.isSome <$>
          GreatDeluge.weigh (.candidate 0 (.eager (.change ⟨0, some 1, 1 - 0⟩))))) ∧
    ∀ schedule : AnnealingSchedule ℚ,
      (LazyChange.mk 0 1).Concurs (⟨.single, schedule, false⟩, World.settled) (1 - 0)
        (SimulatedAnnealing.weigh (.candidate 0 (.lazy ⟨0, 1⟩)))
        (fun rule => some (some (.lazy ⟨0, 1⟩ rule)))
        (Option.isSome <$>
          SimulatedAnnealing.weigh (.candidate 0 (.eager (.change ⟨0, some 1, 1 - 0⟩)))) := by
  have hfilled : Penalty.Filled [[0, 1], [0]] World.settled.solution.model := ⟨rfl, rfl, by
    intro v option hv
    match v, hv with
    | 0, hv => cases hv; exact ⟨_, rfl, by decide⟩
    | 1, hv => cases hv; exact ⟨_, rfl, by decide⟩⟩
  have hconcurs := LazyChange.concurs (G := Generator Empty ℚ) (Penalty.exact_filled [[0, 1], [0]])
    hfilled (c := ⟨0, 1⟩) (by decide) ⟨_, rfl, by decide⟩ (m := ⟨0, some 1, 1 - 0⟩) rfl 0
  exact ⟨Heuristic.single_ready, fun schedule => hconcurs.2.2.1.2 _ Heuristic.single_ready,
    fun schedule => hconcurs.2.2.2.1.2 _ Heuristic.single_ready⟩

end LocalSearch
