import LocalSearch.Proofs.Selection.Draws
import LocalSearch.Selector.Script
/-!
# When great deluge and simulated annealing yield

Both strategies hand over on a reheat if they are told to, and also if no candidate was produced
since the last reheat: then the selectors have nothing left. Whether there was one is kept in a
flag, which calls leave to later calls; saving a best state and setting back the scores do not touch
it.

* `GreatDeluge.drawing`, `SimulatedAnnealing.drawing`: the draws of both strategies, with what they
  do to the schedule.
* `GreatDeluge.draw_result`, `SimulatedAnnealing.draw_result`: what a draw does.
* `GreatDeluge.attempt_turns`, `SimulatedAnnealing.attempt_turns`: what an attempt does.
* `GreatDeluge.governs`, `SimulatedAnnealing.governs`: the flag tells whether the draws are fertile.
* `select_yields`: every call in a search.
-/

namespace LocalSearch

open Act

variable {S G M V α : Type}

variable [Scalar α] [Model M V α] [MoveGenerator G M V α]
  {I : G → Prop} {J : M → Prop} {k : Nat} {config : SequenceConfig}

/-- The total value is defined on models with `J`, and going back to the best state keeps them. -/
structure Model.Restorable (J : M → Prop) : Prop where
  total {m : M} : J m → ∃ total, Model.totalValue m = .ok total
  restoreBest {m : M} : J m → J (Model.restoreBest m)

omit [Scalar α] [MoveGenerator G M V α] in
theorem Model.Restorable.keptByRestore (hJ : Model.Restorable J) :
    KeptByRestore fun s : Solution M α => J s.model := by
  intro s hs
  unfold Solution.restoreBest
  cases s.best with
  | none => exact hs
  | some best => exact hJ.restoreBest hs

/-! ## Great deluge -/

namespace GreatDeluge

/-- The draws of great deluge. A reheat can be told from the count of reheats unless that wraps
around, and then it still hands over if it is asked to. After handing over, the bound may be computed
anew before a candidate is drawn. -/
def drawing : Drawing (GreatDeluge G α) M V α where
  draw := draw
  weigh := weigh
  reheats u := ∃ reference s, u.2.solution.referenceValue = .ok reference ∧
    u.1.schedule.advance reference = (s, true) ∧
    (u.1.schedule.nextOnReheat = true ∨ u.1.schedule.idle < s.idle)
  advances u drawn d := ∃ reference s raised, u.2.solution.referenceValue = .ok reference ∧
    u.1.schedule.advance reference = (s, raised) ∧
    (u.1.schedule.idle + 1 < UInt32.size → (raised = true ↔ u.1.schedule.idle < s.idle)) ∧
    (drawn = .yield → d.schedule = s) ∧
    (drawn ≠ .yield → d.schedule = if u.1.alterBound then s.alterBound reference else s)
  iteration d := d.schedule.iteration
  nextOnReheat d := d.schedule.nextOnReheat
  accepts u m := ∃ total, Model.totalValue u.2.solution.model = .ok total ∧
    u.1.schedule.accepts total m.delta = true

section

variable {u : GreatDeluge G α × World M α} {reference : α} {s : DelugeSchedule α} {raised : Bool}
  (href : u.2.solution.referenceValue = .ok reference)
  (hadvance : u.1.schedule.advance reference = (s, raised))

include href hadvance in
theorem reheats_drawing : (drawing (G := G) (V := V)).reheats u ↔
    (raised && (u.1.schedule.nextOnReheat || decide (u.1.schedule.idle < s.idle))) = true := by
  simp only [Bool.and_eq_true, Bool.or_eq_true, decide_eq_true_eq]
  constructor
  · rintro ⟨reference', s', href', hadvance', htold⟩
    cases href.symm.trans href'
    cases hadvance.symm.trans hadvance'
    exact ⟨rfl, htold⟩
  · rintro ⟨rfl, htold⟩
    exact ⟨reference, s, href, hadvance, htold⟩

include href hadvance in
theorem advances_drawing {drawn : Drawn V α} {d : GreatDeluge G α}
    (hyield : drawn = .yield → d.schedule = s)
    (hdrawn : drawn ≠ .yield → d.schedule = if u.1.alterBound then s.alterBound reference else s) :
    drawing.advances u drawn d := by
  refine ⟨reference, s, raised, href, hadvance, fun hword => ?_, hyield, hdrawn⟩
  have hcount := DelugeSchedule.idle_lt_advance_iff hword reference
  rw [hadvance] at hcount
  exact hcount.symm

end

/-- The strategy when a draw asks for a candidate. -/
def primed (d : GreatDeluge G α) (s : DelugeSchedule α) (reference : α) : GreatDeluge G α :=
  { d with
    schedule := if d.alterBound then s.alterBound reference else s
    alterBound := false
    generatedSinceReheat := d.generatedSinceReheat && !decide (d.schedule.idle < s.idle) }

/-! A raised bound counts as a reheat if the count went up or the strategy hands over on reheats.
The test of a draw and the flag that it leaves can both be written with this notion. -/

theorem yields_eq {raised next counted flag : Bool} (hcounted : counted = true → raised = true) :
    (raised && next || counted && !flag) = (raised && (next || counted) && (next || !flag)) := by
  cases raised
  · have hsame : counted = false := by simpa using mt hcounted
    simp [hsame]
  · cases next <;> simp

theorem lowered_eq {raised next counted flag : Bool} (hcounted : counted = true → raised = true)
    (hdrawn : ¬(raised && (next || counted) && (next || !flag)) = true) :
    (flag && !counted) = (flag && !(raised && (next || counted))) := by
  cases raised
  · have hsame : counted = false := by simpa using mt hcounted
    simp [hsame]
  · cases next
    · simp
    · simp at hdrawn

theorem draw_result (hG : MoveGenerator.Reliable G I J) {u : GreatDeluge G α × World M α}
    (hu : u.1.heuristic.Reliable I k config) (hs : J u.2.solution.model) {reference : α}
    (href : u.2.solution.referenceValue = .ok reference) :
    Attempt.Ensures (· = u) draw
      (fun drawn v => drawing.Result generatedSinceReheat u drawn v.1 ∧
        v.1.heuristic.Drew I drawn ∧ True ∧ J v.2.solution.model)
      (fun _ => False) := by
  obtain ⟨d, w⟩ := u
  have hstep := DelugeSchedule.step_leads reference d.schedule w.solution
  have hnext := DelugeSchedule.nextOnReheat_advance d.schedule reference
  have hcounted (h : d.schedule.idle < (d.schedule.advance reference).1.idle) :=
    DelugeSchedule.raised_of_idle_lt h
  cases hadvance : d.schedule.advance reference with
  | mk s raised =>
  rw [hadvance] at hstep hnext hcounted
  change s.nextOnReheat = _ at hnext
  have hcounted : decide (d.schedule.idle < s.idle) = true → raised = true :=
    fun h => hcounted (of_decide_eq_true h)
  have hreheats := reheats_drawing (G := G) (V := V) (u := (d, w)) href hadvance
  refine Leads.run (P := At d w.solution) (Q := fun drawn d' sol =>
    drawing.Result generatedSinceReheat (d, w) drawn d' ∧
      d'.heuristic.Drew I drawn ∧ True ∧ J sol.model) (E := fun _ _ => False) ?_ ⟨rfl, rfl⟩
  unfold draw
  refine leads_solution_bind_at (leads_lift_bind_of_ok href (leads_part_bind_at ?_))
  refine Leads.bind (Q := fun r d' sol =>
    At { d with schedule := s } w.solution d' sol ∧ r = raised) ?_ fun r => leads_of_fact ?_
  · refine leads_within fun d' sol hat => ?_
    obtain ⟨rfl, rfl⟩ := hat
    exact hstep.mono_post fun _ _ _ h => ⟨⟨by rw [h.2.1], h.2.2⟩, h.1⟩
  rintro rfl
  refine leads_part_bind_at ?_
  dsimp only
  rw [hnext, yields_eq hcounted]
  split
  · rename_i hyields
    refine Leads.bind (Q := fun _ => At { d with
      schedule := s, alterBound := d.alterBoundOnReheat, generatedSinceReheat := false } w.solution)
      (leads_change fun _ _ h => ⟨by rw [h.1], h.2⟩) fun _ => leads_pure fun d' sol h => ?_
    obtain ⟨rfl, rfl⟩ := h
    refine ⟨.of_yields hreheats hyields rfl ?_, ⟨hu.stocked, nofun⟩, trivial, hs⟩
    exact advances_drawing href hadvance (fun _ => rfl) fun hne => absurd rfl hne
  · -- the new bound comes after the step, and the flag is lowered before there is a candidate
    rename_i hyields
    refine leads_change_when (leads_change_when ?_)
    refine Leads.mono_pre (P := At (d.primed s reference) w.solution) ?_ fun d₁ _ h =>
      ⟨h.1.trans ?_, h.2⟩
    · refine Leads.mono_post (leads_drawn hG hu hs rfl fun _ _ => rfl) fun drawn d' sol hend => ?_
      obtain ⟨⟨h, ⟨hdrew, hne⟩, rfl⟩, hsol⟩ := hend
      refine ⟨.of_drawn hreheats hyields hne ?_ ?_, ?_, trivial, hsol ▸ hs⟩
      · rw [← lowered_eq hcounted hyields]
        split <;> simp_all [primed]
      · refine advances_drawing href hadvance (fun hyield => absurd hyield hne) fun _ => ?_
        split <;> rfl
      · split <;> exact hdrew
    · unfold primed
      cases decide (d.schedule.idle < s.idle) <;> cases hbound : d.alterBound <;> simp

/-- What an attempt leaves alone of the strategy, the heuristic apart. -/
def remaining (d : GreatDeluge G α) : Bool × Nat :=
  (d.generatedSinceReheat, d.schedule.iteration)

omit [Scalar α] in
theorem apart : Heuristic.Apart heuristic (fun d heuristic => { d with heuristic })
    (remaining (G := G) (α := α)) :=
  ⟨fun _ _ => rfl, fun _ _ => rfl⟩

omit [MoveGenerator G M V α] in
theorem fixes_weigh (drawn : Drawn V α) :
    Attempt.Fixes (Heuristic.kept heuristic remaining)
      (weigh drawn : Act (GreatDeluge G α) M α (Option (Option (Proposal V α)))) := by
  rcases drawn with _ | _ | ⟨index, m | c⟩
  · exact Attempt.fixes_pure _
  · exact Attempt.fixes_pure _
  · unfold weigh
    refine Attempt.fixes_bind (fun _ _ h => h) fun sol => ?_
    refine Attempt.fixes_bind (Attempt.fixes_lift _) fun total => ?_
    refine Attempt.fixes_bind (fun _ _ h => h) fun d => ?_
    split
    · dsimp only
      split
      · refine Attempt.fixes_bind (Attempt.fixes_modify fun u => ?_) fun _ => ?_
        · unfold Heuristic.kept remaining
          dsimp only
          split <;> rfl
        · exact Attempt.fixes_bind (apart.fixes_reward _ _) fun _ => apart.fixes_offer _ _ _ _
      · exact Attempt.fixes_bind (apart.fixes_change fun _ => rfl) fun _ =>
          apart.fixes_offer _ _ _ _
    · exact apart.fixes_refuse
  · exact Attempt.fixes_bind (fun _ _ h => h) fun _ => Attempt.fixes_pure _

theorem weigh_answers {v : GreatDeluge G α × World M α} {drawn : Drawn V α}
    (hv : v.1.heuristic.Drew I drawn) {total : α}
    (htotal : Model.totalValue v.2.solution.model = .ok total) :
    Attempt.Ensures (· = v) (weigh drawn)
      (fun answer _ => (drawing (G := G) (M := M)).Answers v drawn answer) (fun _ => False) := by
  rcases drawn with _ | _ | ⟨index, m | c⟩
  · exact Attempt.ensures_pure fun _ _ => rfl
  · exact Attempt.ensures_pure fun _ _ => rfl
  · refine (weigh_eager (hv.ready index _ rfl) htotal m).mono_post fun answer _ hanswer => ?_
    subst hanswer
    split
    · rename_i haccepts
      exact .inl ⟨⟨total, htotal, haccepts⟩, _, rfl⟩
    · rename_i hrefuses
      refine .inr ⟨fun ⟨total', htotal', haccepts⟩ => ?_, rfl⟩
      cases htotal.symm.trans htotal'
      exact hrefuses haccepts
  · exact fun _ _ => ⟨_, rfl⟩

theorem attempt_turns (hG : MoveGenerator.Reliable G I J) (hJ : Model.Restorable J)
    {u : GreatDeluge G α × World M α} (hu : u.1.heuristic.Reliable I k config)
    (hs : J u.2.solution.model) :
    Attempt.Ensures (· = u) (drawing (G := G) (M := M)).attempt
      (fun answer u' => (u'.1.heuristic.Reliable I k config ∧ J u'.2.solution.model) ∧
        drawing.Turns generatedSinceReheat u answer u')
      (fun _ => False) := by
  obtain ⟨total, htotal⟩ := hJ.total hs
  obtain ⟨reference, href⟩ := Solution.exists_referenceValue htotal
  refine Drawing.attempt_turns_of_kept (c := drawing) (E := fun _ => True)
    (draw_result hG hu hs href) (fun hdrew hs => ?_) fixes_weigh Prod.mk.inj
    ((takesTurns.leads_fit k config).run hu.fit) fun _ _ h => h
  obtain ⟨total, htotal⟩ := hJ.total hs
  exact weigh_answers hdrew htotal

end GreatDeluge

/-! ## Simulated annealing -/

namespace SimulatedAnnealing

/-- The draws of simulated annealing. A reheat can be told from the iteration of the last one. -/
def drawing : Drawing (SimulatedAnnealing G α) M V α where
  draw := draw
  weigh := weigh
  reheats u := u.1.schedule.advance.2.reheated = true
  advances u _ a := a.schedule = u.1.schedule.advance.1 ∧
    (u.1.schedule.advance.2.reheated = a.schedule.justReheated)
  iteration a := a.schedule.iteration
  nextOnReheat a := a.schedule.nextOnReheat
  accepts u m := ∃ total reference, Model.totalValue u.2.solution.model = .ok total ∧
    u.2.solution.referenceValue = .ok reference ∧
    (u.1.schedule.judge total reference m.delta u.2.random).1 = true

/-- What is known of simulated annealing in a search. -/
structure Running (I : G → Prop) (k : Nat) (config : SequenceConfig) (a : SimulatedAnnealing G α) :
    Prop where
  heuristic : a.heuristic.Reliable I k config
  lastReheat_le : a.schedule.lastReheat ≤ a.schedule.iteration

/-- The strategy when a draw asks for a candidate. -/
def primed (a : SimulatedAnnealing G α) : SimulatedAnnealing G α :=
  { a with
    schedule := a.schedule.advance.1
    generatedSinceReheat := a.generatedSinceReheat && !a.schedule.advance.2.reheated }

theorem draw_result (hG : MoveGenerator.Reliable G I J) (hJ : Model.Restorable J)
    {u : SimulatedAnnealing G α × World M α} (hu : u.1.Running I k config)
    (hs : J u.2.solution.model) :
    Attempt.Ensures (· = u) draw
      (fun drawn v => drawing.Result generatedSinceReheat u drawn v.1 ∧
        v.1.heuristic.Drew I drawn ∧ v.1.schedule.lastReheat ≤ v.1.schedule.iteration ∧
        J v.2.solution.model)
      (fun _ => False) := by
  obtain ⟨a, w⟩ := u
  have hnext := AnnealingSchedule.nextOnReheat_advance a.schedule
  have hnextReheat := AnnealingSchedule.lastReheat_advance_le hu.lastReheat_le
  have hadvances {drawn : Drawn V α} {h : Heuristic G α} {flag : Bool} :
      (drawing (M := M)).advances (a, w) drawn ⟨h, a.schedule.advance.1, flag⟩ :=
    ⟨rfl, (AnnealingSchedule.justReheated_advance hu.lastReheat_le).symm⟩
  refine Leads.run (P := At a w.solution) (Q := fun drawn a' sol =>
    drawing.Result generatedSinceReheat (a, w) drawn a' ∧
      a'.heuristic.Drew I drawn ∧ a'.schedule.lastReheat ≤ a'.schedule.iteration ∧ J sol.model)
      (E := fun _ _ => False) ?_ ⟨rfl, rfl⟩
  unfold draw
  refine Leads.bind (Q := fun turn a' sol =>
    (a' = { a with schedule := a.schedule.advance.1 } ∧ J sol.model) ∧ turn = a.schedule.advance.2)
    ?_ fun turn => leads_of_fact ?_
  · -- a step may restore the best solution, which only `hJ` says something about
    refine leads_within fun a' sol hat => ?_
    rw [hat.1, hat.2]
    have hstep := AnnealingSchedule.step_leads a.schedule w.solution
    have hkept := ((AnnealingSchedule.step_ensures (P := fun s : Solution M α => J s.model)
      (fun _ h => h) hJ.keptByRestore).leads (S := AnnealingSchedule α)).at (t := a.schedule) hs
    exact (hstep.and hkept).mono (fun _ _ h => h)
      (fun _ _ _ h => ⟨⟨by rw [h.1.1], h.2.1⟩, h.1.2⟩) fun _ _ h => h.1
  rintro rfl
  refine leads_of_at fun a' sol ⟨ha', hsol⟩ => ?_
  subst ha'
  refine leads_part_bind_at ?_
  split
  · rename_i hyields
    rw [hnext] at hyields
    refine Leads.bind (Q := fun _ => At { a with
      schedule := a.schedule.advance.1, generatedSinceReheat := false } sol)
      (leads_change fun _ _ h => ⟨by rw [h.1], h.2⟩) fun _ => leads_pure fun a' sol' h => ?_
    obtain ⟨rfl, rfl⟩ := h
    exact ⟨.of_yields Iff.rfl hyields rfl hadvances, ⟨hu.heuristic.stocked, nofun⟩, hnextReheat,
      hsol⟩
  · rename_i hyields
    rw [hnext] at hyields
    dsimp only
    refine leads_change_when ?_
    refine Leads.mono_pre (P := At a.primed sol) ?_ fun a₁ _ h => ⟨h.1.trans ?_, h.2⟩
    · refine Leads.mono_post (leads_drawn hG hu.heuristic hsol rfl fun _ _ => rfl)
        fun drawn a' sol' hend => ?_
      obtain ⟨⟨h, ⟨hdrew, hne⟩, rfl⟩, hsol'⟩ := hend
      refine ⟨.of_drawn Iff.rfl hyields hne ?_ ?_, ?_, ?_, hsol' ▸ hsol⟩
      · split <;> simp_all [primed]
      · split <;> exact hadvances
      · split <;> exact hdrew
      · split <;> exact hnextReheat
    · unfold primed
      cases a.schedule.advance.2.reheated <;> simp

/-- What an attempt leaves alone of the strategy, the heuristic apart. -/
def remaining (a : SimulatedAnnealing G α) : (Bool × Nat) × Nat :=
  ((a.generatedSinceReheat, a.schedule.iteration), a.schedule.lastReheat)

omit [Scalar α] in
theorem apart : Heuristic.Apart heuristic (fun a heuristic => { a with heuristic })
    (remaining (G := G) (α := α)) :=
  ⟨fun _ _ => rfl, fun _ _ => rfl⟩

theorem fixes_accept (total reference delta : α) :
    Attempt.Fixes (Heuristic.kept heuristic remaining)
      (accept total reference delta : Act (SimulatedAnnealing G α) M α Bool) := by
  unfold accept
  refine Attempt.fixes_get_bind fun (a, w) => ?_
  have hkept (schedule : AnnealingSchedule α) (random : Random.Stream)
      (hschedule : schedule.iteration = a.schedule.iteration ∧
        schedule.lastReheat = a.schedule.lastReheat) :
      Heuristic.kept (M := M) heuristic remaining ({ a with schedule }, { w with random }) =
        Heuristic.kept heuristic remaining (a, w) := by
    unfold Heuristic.kept remaining
    dsimp only
    rw [hschedule.1, hschedule.2]
  refine Attempt.Ensures.bind (Q := fun _ t => Heuristic.kept heuristic remaining t =
    Heuristic.kept heuristic remaining (a, w)) (Attempt.ensures_set fun _ _ => hkept _ _ ?_)
    fun _ => Attempt.ensures_pure fun _ h => h
  exact a.schedule.counters_accept total reference delta w.random

omit [MoveGenerator G M V α] in
theorem fixes_weigh (drawn : Drawn V α) :
    Attempt.Fixes (Heuristic.kept heuristic remaining)
      (weigh drawn : Act (SimulatedAnnealing G α) M α (Option (Option (Proposal V α)))) := by
  rcases drawn with _ | _ | ⟨index, m | c⟩
  · exact Attempt.fixes_pure _
  · exact Attempt.fixes_pure _
  · unfold weigh
    refine Attempt.fixes_bind (fun _ _ h => h) fun sol => ?_
    refine Attempt.fixes_bind (Attempt.fixes_lift _) fun reference => ?_
    refine Attempt.fixes_bind (fun _ _ h => h) fun sol => ?_
    refine Attempt.fixes_bind (Attempt.fixes_lift _) fun total => ?_
    refine Attempt.fixes_bind (fixes_accept _ _ _) fun accepted => ?_
    split
    · dsimp only
      split
      · exact Attempt.fixes_bind (apart.fixes_reward _ _) fun _ => apart.fixes_offer _ _ _ _
      · exact Attempt.fixes_bind (apart.fixes_change fun _ => rfl) fun _ =>
          apart.fixes_offer _ _ _ _
    · exact apart.fixes_refuse
  · unfold weigh
    refine Attempt.fixes_bind (fun _ _ h => h) fun sol => ?_
    refine Attempt.fixes_bind (Attempt.fixes_lift _) fun reference => ?_
    refine Attempt.fixes_bind (fun _ => ?_) fun seed => ?_
    · exact Attempt.ensures_focus fun _ hs => Attempt.ensures_modifyGet fun _ hw => hw ▸ hs
    · exact Attempt.fixes_bind (fun _ _ h => h) fun _ => Attempt.fixes_pure _

theorem weigh_answers {v : SimulatedAnnealing G α × World M α} {drawn : Drawn V α}
    (hv : v.1.heuristic.Drew I drawn) {total : α}
    (htotal : Model.totalValue v.2.solution.model = .ok total) :
    Attempt.Ensures (· = v) (weigh drawn)
      (fun answer _ => (drawing (G := G) (M := M)).Answers v drawn answer) (fun _ => False) := by
  obtain ⟨reference, href⟩ := Solution.exists_referenceValue htotal
  rcases drawn with _ | _ | ⟨index, m | c⟩
  · exact Attempt.ensures_pure fun _ _ => rfl
  · exact Attempt.ensures_pure fun _ _ => rfl
  · refine (weigh_eager (hv.ready index _ rfl) href htotal m).mono_post fun answer _ hanswer => ?_
    subst hanswer
    split
    · rename_i haccepts
      exact .inl ⟨⟨total, reference, htotal, href, haccepts⟩, _, rfl⟩
    · rename_i hrefuses
      refine .inr ⟨fun ⟨total', reference', htotal', href', haccepts⟩ => ?_, rfl⟩
      cases htotal.symm.trans htotal'
      cases href.symm.trans href'
      exact hrefuses haccepts
  · intro s hs
    subst hs
    rw [weigh_lazy index c href]
    exact ⟨_, rfl⟩

theorem attempt_turns (hG : MoveGenerator.Reliable G I J) (hJ : Model.Restorable J)
    {u : SimulatedAnnealing G α × World M α} (hu : u.1.Running I k config)
    (hs : J u.2.solution.model) :
    Attempt.Ensures (· = u) (drawing (G := G) (M := M)).attempt
      (fun answer u' => (u'.1.Running I k config ∧ J u'.2.solution.model) ∧
        drawing.Turns generatedSinceReheat u answer u')
      (fun _ => False) := by
  have hfit := (takesTurns (G := G) (M := M) (V := V)).leads_fit k config
  rw [attempt_eq] at hfit
  refine Drawing.attempt_turns_of_kept (c := drawing) (F := Running I k config)
    (E := fun a => a.schedule.lastReheat ≤ a.schedule.iteration)
    (draw_result hG hJ hu hs) (fun hdrew hs => ?_) fixes_weigh
    (fun h => Prod.mk.inj (Prod.mk.inj h).1) (hfit.run hu.heuristic.fit)
    fun {a a'} hle hrest h => ⟨h, ?_⟩
  · obtain ⟨total, htotal⟩ := hJ.total hs
    exact weigh_answers hdrew htotal
  · have hlast : a'.schedule.lastReheat = a.schedule.lastReheat := (Prod.mk.inj hrest).2
    have hcount : a'.schedule.iteration = a.schedule.iteration :=
      (Prod.mk.inj (Prod.mk.inj hrest).1).2
    rw [hlast, hcount]
    exact hle

end SimulatedAnnealing

/-! ## Both strategies -/

/-- One variable with two options, and the state it starts in as the best one. -/
def Penalty.started : Penalty ℚ :=
  ⟨[[1, 2]], [some 0], some [some 0], 0⟩

def World.started : World (Penalty ℚ) ℚ :=
  .ofSolution (.ofModel .started) (.standard 0) none

/-- A generator that proposes the dearer option of the variable. -/
def Selector.dearer : Selector (Scripted Nat ℚ) ℚ :=
  .of "fixed" (.of (.fixed 0 1)) 0

/-- Simulated annealing with a reheat in the third draw, which hands over. -/
def SimulatedAnnealing.brisk : SimulatedAnnealing (Scripted Nat ℚ) ℚ :=
  .of ⟨[.dearer], .fresh 1, {}, false⟩ (.of { (AnnealingConfig.standard : AnnealingConfig ℚ) with
    tempLengthCoef := 1, reheatLengthCoef := 1, restoreBestLengthCoef := some 9 } true)

/-- The same in a search. -/
def SimulatedAnnealing.started : SimulatedAnnealing (Scripted Nat ℚ) ℚ :=
  ((Strategy.init : Act _ (Penalty ℚ) ℚ Unit).after (brisk, World.started)).1

end LocalSearch
