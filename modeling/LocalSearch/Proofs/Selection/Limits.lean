import Mathlib
import LocalSearch.Proofs.Model.Additive
import LocalSearch.Proofs.Selection.Ballots
import LocalSearch.Proofs.Selection.Supply
/-!
# The limits within which strategies propose

Hill climbing proposes moves that do not make things worse, and lazy changes with a rule that takes
back what would. Great deluge, and group acceptance without a temperature, propose what does not make
things worse or stays below the water level, and lazy changes with a rule that compares with the level
as it was when they were drawn. The level moves from draw to draw, so what a call proposes is
compared with the level that was in force at its last draw.

* `Downhill`, `Under`: the limits on a change.
* `HillClimbing.select_downhill`: what hill climbing proposes.
* `GreatDeluge.level?`, `Group.level?`: the level that decides in a call.
* `GreatDeluge.select_under`, `Group.select_under`: what these strategies propose.
-/

namespace LocalSearch

open Act

variable {S G M V K : Type} [Field K] [LinearOrder K] [Scalar.Functions K]

/-! ## Limits -/

/-- The change does not make things worse. -/
def Downhill (_total delta : K) : Prop :=
  delta ≤ 0

/-- The change does not make things worse, or the total value after it is not above the level. -/
def Under (level total delta : K) : Prop :=
  delta ≤ 0 ∨ total ≤ level

theorem underWater_iff {level total delta : K} :
    Criterion.underWater (some level) total delta = true ↔ Under level total delta := by
  simp [Criterion.underWater, Under]

theorem DelugeSchedule.accepts_iff {s : DelugeSchedule K} {level total delta : K}
    (h : s.bound = some level) :
    s.accepts total delta = true ↔ Under level (total + delta) delta := by
  simp [accepts, Under, h]

variable [MoveGenerator G M V K] {I : G → Prop} {Φ : M → Candidate V K → Prop}
  {P : Solution M K → Prop}

/-! ## Hill climbing -/

namespace HillClimbing

/-- The generators are of a kind. -/
def Stocked (I : G → Prop) (h : HillClimbing G K) : Prop :=
  h.heuristic.sequence.Stocked I

omit [Field K] [LinearOrder K] [Scalar.Functions K] [MoveGenerator G M V K] in
theorem carries_stocked : Heuristic.Carries heuristic
    (fun h heuristic => { h with heuristic }) I (Stocked (K := K) I) :=
  ⟨fun h => h, fun _ h => h⟩

theorem init_stocked (hG : MoveGenerator.Supplies G I Φ) :
    Leads (fun h s => h.Stocked I ∧ P s) (init : Act (HillClimbing G K) M K Unit)
      (fun _ h s => h.Stocked I ∧ P s) (fun h s => h.Stocked I ∧ P s) := by
  unfold init
  refine leads_solution_bind_any fun now => ?_
  refine Leads.bind (carries_stocked.init hG now.model) fun _ => ?_
  exact leads_change fun h s hh => ⟨Sequence.setHillClimbing_stocked hG true hh.1, hh.2⟩

variable [Model M V K]

/-- What an attempt leaves: the generators of their kind, and with an answer a proposal that leads
downhill. -/
def Answers (I : G → Prop) (Φ : M → Candidate V K → Prop) (P : Solution M K → Prop)
    (p? : Option (Proposal V K)) (h : HillClimbing G K) (s : Solution M K) : Prop :=
  (h.Stocked I ∧ P s) ∧ ∀ p, p? = some p → p.Respects Φ Downhill s.model

omit [MoveGenerator G M V K] in
theorem answers_none {h : HillClimbing G K} {s : Solution M K} (hh : h.Stocked I ∧ P s) :
    Answers I Φ P none h s :=
  ⟨hh, fun _ hp => by cases hp⟩

omit [MoveGenerator G M V K] in
theorem answers_some {h : HillClimbing G K} {s : Solution M K} {p : Proposal V K}
    (hh : h.Stocked I ∧ P s) (hp : p.Respects Φ Downhill s.model) :
    Answers I Φ P (some p) h s :=
  ⟨hh, fun _ hp' => by cases hp'; exact hp⟩

theorem attempt_downhill (hG : MoveGenerator.Supplies G I Φ) :
    Leads (fun h s => h.Stocked I ∧ P s)
      (attempt : Act (HillClimbing G K) M K (Option (Option (Proposal V K))))
      (fun answer => Answers I Φ P answer.join) (fun h s => h.Stocked I ∧ P s) := by
  unfold attempt
  refine Leads.bind (Q := fun _ h s => h.Stocked I ∧ P s) (leads_change fun _ _ h => h) fun _ =>
    leads_part_bind_any fun h => ?_
  split
  · refine leads_report_bind fun _ => ?_
    refine Leads.bind (Q := fun _ h s => h.Stocked I ∧ P s) (leads_change fun _ _ h => h) fun _ =>
      leads_pure fun _ _ h => answers_none h
  refine Leads.bind (carries_stocked.draw hG) fun d => ?_
  cases d with
  | yield => exact leads_pure fun _ _ h => answers_none h.1
  | empty => exact leads_pure fun _ _ h => answers_none h.1
  | candidate index c =>
    cases c with
    | lazy c =>
      refine leads_pure fun _ _ h => answers_some h.1 ⟨h.2 index _ rfl, fun _ _ after delta hd => ?_⟩
      show delta ≤ 0
      simpa [Criterion.accepts] using hd
    | eager m =>
      dsimp only
      split
      · rename_i hdelta
        refine Leads.bind (Q := fun _ h s => h.Stocked I ∧ P s ∧ Φ s.model (.eager m)) ?_ fun _ => ?_
        · refine Leads.mono (carries_stocked.spares (P := fun s => P s ∧ Φ s.model (.eager m))
            (Attempt.fixes_bind (spares_rewardMove _ _) fun _ => spares_reportAccept _ _ _ _)
            (Attempt.fixes_bind (quiet_rewardMove _ _) fun _ => quiet_reportAccept _ _ _ _))
            (fun _ _ h => ⟨h.1.1, h.1.2, h.2 index _ rfl⟩) (fun _ _ _ h => h)
            fun _ _ h => ⟨h.1, h.2.1⟩
        · refine leads_pure fun _ _ h => answers_some ⟨h.1, h.2.1⟩ ⟨h.2.2, fun _ _ => ?_⟩
          show m.delta ≤ 0
          simpa using hdelta
      · refine Leads.bind (Q := fun _ h s => h.Stocked I ∧ P s) ?_ fun _ =>
          leads_pure fun _ _ h => answers_none h
        exact (carries_stocked.change (f := Heuristic.fail) (P := P) fun _ => rfl).mono_pre
          fun _ _ h => h.1

theorem select_downhill (hG : MoveGenerator.Supplies G I Φ) :
    Leads (fun h s => h.Stocked I ∧ P s)
      (select : Act (HillClimbing G K) M K (Option (Proposal V K)))
      (Answers I Φ P) (fun h s => h.Stocked I ∧ P s) := by
  unfold select
  refine leads_part_bind_any fun h => ?_
  refine Leads.bind (Q := fun answer => Answers I Φ P answer.join) ?_ fun answer =>
    leads_pure fun _ _ h => h
  -- an attempt without an answer leaves what it started with
  exact Attempt.ensures_firstOf (attempt_downhill hG) (fun _ => ⟨fun h => h.1, answers_none⟩) _

end HillClimbing

/-! ## Great deluge -/

/-- A proposal respects the water level of a call, if there is a proposal. -/
def Sunk [Model M V K] (Φ : M → Candidate V K → Prop) (level? : Option K) (model : M)
    (p? : Option (Proposal V K)) : Prop :=
  ∀ p, p? = some p → ∃ level, level? = some level ∧ p.Respects Φ (Under level) model

section

variable [Model M V K] {m : Move V K} {c : LazyChange V} {model : M} {level total : K}

omit [MoveGenerator G M V K] in
theorem sunk_none {level? : Option K} : Sunk Φ level? model none :=
  fun _ hp => by cases hp

omit [MoveGenerator G M V K] in
/-- A move that was accepted for the total value that it was decided on. -/
theorem sunk_move {s : DelugeSchedule K} (hlevel : s.bound = some level)
    (htotal : Model.totalValue model = .ok total) (hm : Φ model (.eager m))
    (haccepts : s.accepts total m.delta = true) :
    Sunk Φ (some level) model (some (.move m)) := by
  rintro _ ⟨⟩
  refine ⟨level, rfl, hm, fun total' htotal' => ?_⟩
  cases htotal.symm.trans htotal'
  exact (DelugeSchedule.accepts_iff hlevel).1 haccepts

omit [MoveGenerator G M V K] in
theorem sunk_lazy {criterion : Criterion K} (hc : Φ model (.lazy c))
    (hcriterion : ∀ total delta, criterion.accepts total delta =
      Criterion.underWater (some level) total delta) :
    Sunk Φ (some level) model (some (.lazy c criterion)) := by
  rintro _ ⟨⟩
  refine ⟨level, rfl, hc, fun _ _ after delta haccepts => ?_⟩
  rw [hcriterion] at haccepts
  exact underWater_iff.1 haccepts

end

namespace GreatDeluge

/-- The generators are of a kind. -/
def Stocked (I : G → Prop) (d : GreatDeluge G K) : Prop :=
  d.heuristic.sequence.Stocked I

omit [Field K] [LinearOrder K] [Scalar.Functions K] [MoveGenerator G M V K] in
theorem carries_stocked : Heuristic.Carries heuristic
    (fun d heuristic => { d with heuristic }) I (Stocked (K := K) I) :=
  ⟨fun h => h, fun _ h => h⟩

theorem init_stocked (hG : MoveGenerator.Supplies G I Φ) :
    Leads (fun d s => d.Stocked I ∧ P s) (init : Act (GreatDeluge G K) M K Unit)
      (fun _ d s => d.Stocked I ∧ P s) (fun d s => d.Stocked I ∧ P s) := by
  unfold init
  refine leads_solution_bind_any fun now => ?_
  refine Leads.bind (carries_stocked.init hG now.model) fun _ => ?_
  exact leads_change fun _ _ h => h

variable [Model M V K]

/-- A draw keeps the generators of their kind, and gives a candidate once the level is set. -/
theorem draw_supplies (hG : MoveGenerator.Supplies G I Φ) :
    Leads (fun d s => d.Stocked I ∧ P s) (draw : Act (GreatDeluge G K) M K (Drawn V K))
      (fun drawn d s => (d.Stocked I ∧ P s) ∧
        ∀ i c, drawn = .candidate i c → Φ s.model c ∧ d.schedule.bound ≠ none)
      (fun d s => d.Stocked I ∧ P s) := by
  unfold draw
  refine leads_solution_bind_any fun sol => leads_lift_bind (fun _ _ h => h) fun reference _ => ?_
  refine leads_part_bind_any fun before => ?_
  refine Leads.bind (Q := fun _ d s => (d.Stocked I ∧ d.schedule.bound ≠ none) ∧ P s) ?_
    fun raised => leads_part_bind_any fun d => ?_
  · refine leads_within fun d s ⟨hd, hs⟩ => ?_
    refine (DelugeSchedule.step_leads reference d.schedule s).mono (fun _ _ h => h) ?_
      fun _ _ h => h.elim
    rintro _ _ _ ⟨-, rfl, rfl⟩
    exact ⟨⟨hd, DelugeSchedule.bound_advance _ _⟩, hs⟩
  dsimp only
  split
  · refine Leads.bind (Q := fun _ d s => d.Stocked I ∧ P s) (leads_change fun _ _ h => ⟨h.1.1, h.2⟩)
      fun _ => leads_pure fun _ _ h => ⟨h, fun _ _ hd => by cases hd⟩
  -- the flags and the level may be set before the draw, but the level stays set
  refine leads_when (leads_change fun _ _ h => h) fun _ => ?_
  refine leads_when (leads_change fun _ _ h => ⟨⟨h.1.1, Option.some_ne_none _⟩, h.2⟩) fun _ => ?_
  have hcarries : Heuristic.Carries heuristic (fun d heuristic => { d with heuristic }) I
      (fun d : GreatDeluge G K => d.Stocked I ∧ d.schedule.bound ≠ none) :=
    ⟨fun h => h.1, fun h hh => ⟨hh, h.2⟩⟩
  refine Leads.bind ((hcarries.draw (P := P) hG).mono_error fun _ _ h => ⟨h.1.1, h.2⟩) fun drawn => ?_
  cases drawn with
  | yield => exact leads_pure fun _ _ h => ⟨⟨h.1.1.1, h.1.2⟩, fun _ _ hd => by cases hd⟩
  | empty => exact leads_pure fun _ _ h => ⟨⟨h.1.1.1, h.1.2⟩, fun _ _ hd => by cases hd⟩
  | candidate index c =>
    refine Leads.bind (Q := fun _ d s => (d.Stocked I ∧ P s) ∧ Φ s.model c ∧ d.schedule.bound ≠ none)
      (leads_change fun _ _ h => ⟨⟨h.1.1.1, h.1.2⟩, h.2 index c rfl, h.1.1.2⟩) fun _ => ?_
    exact leads_pure fun _ _ h => ⟨h.1, fun _ _ hd => by cases hd; exact h.2⟩

omit [MoveGenerator G M V K] in
/-- What an attempt makes of a candidate that was drawn at a level. -/
theorem weigh_under {sol : Solution M K} {d : GreatDeluge G K} (hd : d.Stocked I) {level : K}
    (hlevel : d.schedule.bound = some level) (index : Nat) {c : Candidate V K}
    (hc : Φ sol.model c) :
    Leads (At d sol) (weigh (.candidate index c))
      (fun answer d s => (d.Stocked I ∧ s = sol) ∧ Sunk Φ (some level) sol.model answer.join)
      (fun d s => d.Stocked I ∧ s = sol) := by
  cases c with
  | lazy c =>
    refine leads_part_bind_at (leads_pure ?_)
    rintro _ _ ⟨rfl, rfl⟩
    exact ⟨⟨hd, rfl⟩, sunk_lazy hc fun _ _ => by rw [hlevel]; rfl⟩
  | eager m =>
    unfold weigh
    refine leads_solution_bind_at ?_
    refine leads_lift_bind (fun _ _ h => ⟨h.1 ▸ hd, h.2⟩) fun total htotal => leads_part_bind_at ?_
    have hstart : ∀ d' s, At d sol d' s → d'.Stocked I ∧ s = sol :=
      fun _ _ h => ⟨h.1 ▸ hd, h.2⟩
    split
    · rename_i haccepts
      have hsunk := sunk_move hlevel htotal hc haccepts
      have hoffer : Leads (fun d s => Stocked I d ∧ s = sol)
          (do
            let bound := (← Act.part).schedule.bound
            onHeuristic (reportAccept "great_deluge" index m.delta fun _ => [
              ("bound", .outlined (Outline.optional Scalar.outline bound))])
            return some (some (.move m)) : Act (GreatDeluge G K) M K _)
          (fun answer d s => (d.Stocked I ∧ s = sol) ∧ Sunk Φ (some level) sol.model answer.join)
          (fun d s => d.Stocked I ∧ s = sol) := by
        refine leads_part_bind_any fun _ => ?_
        refine Leads.bind (carries_stocked.spares (P := (· = sol)) (spares_reportAccept _ _ _ _)
          (quiet_reportAccept _ _ _ _)) fun _ => leads_pure fun _ _ h => ⟨h, hsunk⟩
      split
      · refine Leads.bind (Q := fun _ d s => Stocked I d ∧ s = sol) (leads_change fun d' s h => ?_)
          fun _ => ?_
        · obtain ⟨rfl, rfl⟩ := h
          split
          · exact ⟨hd, rfl⟩
          · exact ⟨hd, rfl⟩
        · exact Leads.bind (carries_stocked.spares (P := (· = sol)) (spares_rewardMove _ _)
            (quiet_rewardMove _ _)) fun _ => hoffer
      · exact Leads.bind ((carries_stocked.change (f := Heuristic.succeed) (P := (· = sol))
          fun _ => rfl).mono_pre hstart) fun _ => hoffer
    · refine Leads.bind ((carries_stocked.change (f := Heuristic.fail) (P := (· = sol))
        fun _ => rfl).mono_pre hstart) fun _ => leads_pure fun _ _ h => ⟨h, sunk_none⟩

/-- The level at which an attempt draws its candidate, if it draws one. -/
def drawnLevel? (t : GreatDeluge G K × World M K) : Option K :=
  match draw t with
  | .ok (.candidate _ _) t' => t'.1.schedule.bound
  | _ => none

/-- The level at which a call draws its last candidate, which is the one it decides by. -/
def level? (t : GreatDeluge G K × World M K) : Option K :=
  Attempt.lookLast drawnLevel? (attempt (V := V)) maxAttempts t

theorem attempt_under (hG : MoveGenerator.Supplies G I Φ) (t : GreatDeluge G K × World M K)
    (ht : t.1.Stocked I) :
    Attempt.Ensures (· = t) (attempt : Act (GreatDeluge G K) M K (Option (Option (Proposal V K))))
      (fun answer t' => (t'.1.Stocked I ∧ t'.2.solution = t.2.solution) ∧
        Sunk Φ (drawnLevel? t) t.2.solution.model answer.join)
      (fun t' => t'.1.Stocked I ∧ t'.2.solution = t.2.solution) := by
  have hdraw := (draw_supplies (P := (· = t.2.solution)) hG).run (t := t) ⟨ht, rfl⟩
  rw [attempt_eq]
  refine Attempt.ensures_bind_at (fun d t' hrun => ?_) fun _ _ hrun => hdraw.of_error rfl hrun
  obtain ⟨hkept, hcandidate⟩ := hdraw.of_ok rfl hrun
  cases d with
  | yield => exact Attempt.ensures_pure fun _ ht' => ht' ▸ ⟨hkept, sunk_none⟩
  | empty => exact Attempt.ensures_pure fun _ ht' => ht' ▸ ⟨hkept, sunk_none⟩
  | candidate index c =>
    obtain ⟨hc, hbound⟩ := hcandidate index c rfl
    obtain ⟨level, hlevel⟩ := Option.ne_none_iff_exists'.1 hbound
    have hdrawn : drawnLevel? t = some level := by
      unfold drawnLevel?
      rw [hrun]
      exact hlevel
    rw [hdrawn]
    exact (weigh_under hkept.1 hlevel index (hkept.2 ▸ hc)).run ⟨rfl, hkept.2⟩

theorem select_under (hG : MoveGenerator.Supplies G I Φ) (t : GreatDeluge G K × World M K)
    (ht : t.1.Stocked I) :
    Attempt.Ensures (· = t) (select : Act (GreatDeluge G K) M K (Option (Proposal V K)))
      (fun p? t' => (t'.1.Stocked I ∧ t'.2.solution = t.2.solution) ∧
        Sunk Φ (level? t) t.2.solution.model p?)
      (fun t' => t'.2.solution = t.2.solution) := by
  have hloop := Attempt.ensures_firstOf_lookLast drawnLevel?
    (P := fun t' => t'.1.Stocked I ∧ t'.2.solution = t.2.solution)
    (Q := fun level? p? t' => (t'.1.Stocked I ∧ t'.2.solution = t.2.solution) ∧
      Sunk Φ level? t.2.solution.model p?)
    (fun t' ht' => (attempt_under hG t' ht'.1).mono (fun _ h => h) (fun answer t'' h => by
      rw [ht'.2] at h
      cases answer with
      | none => exact h.1
      | some p? => exact h) fun _ h => by rw [ht'.2] at h; exact h) maxAttempts t ⟨ht, rfl⟩
  unfold select
  refine Attempt.Ensures.bind (hloop.mono (fun _ h => h) (fun _ _ h => h) fun _ h => h.2)
    fun answer => ?_
  cases answer with
  | some p? => exact Attempt.ensures_pure fun _ h => h
  | none =>
    show Leads (fun d s => Stocked I d ∧ s = t.2.solution) _
      (fun p? d s => (Stocked I d ∧ s = t.2.solution) ∧
        Sunk Φ (level? t) t.2.solution.model p?) (fun _ s => s = t.2.solution)
    exact leads_part_bind_any fun d => leads_report_bind fun _ => leads_pure fun _ _ h =>
      ⟨h, sunk_none⟩

end GreatDeluge

/-! ## Group acceptance -/

namespace Group

/-- There is no temperature, and the generators are of a kind. -/
structure Alone (I : G → Prop) (g : Group G K) : Prop where
  stocked : g.heuristic.sequence.Stocked I
  annealing_eq : g.annealing = none

/-- Construction is done, and the water level decides alone. -/
structure Votes (I : G → Prop) (g : Group G K) : Prop extends Alone I g where
  constructed : g.constructed = true

/-- The water level is set and decides alone. -/
structure Decides (I : G → Prop) (g : Group G K) : Prop extends Votes I g where
  bound_ne : g.deluge.bound ≠ none

omit [Field K] [LinearOrder K] [Scalar.Functions K] [MoveGenerator G M V K] in
theorem carries_alone : Heuristic.Carries heuristic
    (fun g heuristic => { g with heuristic }) I (Alone (K := K) I) :=
  ⟨fun h => h.stocked, fun h hh => ⟨hh, h.annealing_eq⟩⟩

omit [Field K] [LinearOrder K] [Scalar.Functions K] [MoveGenerator G M V K] in
theorem carries_decides : Heuristic.Carries heuristic
    (fun g heuristic => { g with heuristic }) I (Decides (K := K) I) :=
  ⟨fun h => h.stocked, fun h hh => ⟨⟨⟨hh, h.annealing_eq⟩, h.constructed⟩, h.bound_ne⟩⟩

variable [Model M V K]

theorem init_alone (hG : MoveGenerator.Supplies G I Φ) :
    Leads (fun g s => g.Alone I ∧ P s) (init : Act (Group G K) M K Unit)
      (fun _ g s => g.Alone I ∧ P s) (fun _ s => P s) := by
  unfold init
  refine Leads.bind (Q := fun _ g s => g.Alone I ∧ P s) ?_ fun _ => ?_
  · exact leads_within fun g _ h => leads_change fun _ _ h' =>
      ⟨⟨h.1.stocked, h.1.annealing_eq⟩, h'.2 ▸ h.2⟩
  refine leads_solution_bind_any fun now => ?_
  refine Leads.bind ((carries_alone.init hG now.model).mono_error fun _ _ h => h.2) fun _ => ?_
  refine Leads.bind (Q := fun _ g s => g.Alone I ∧ P s)
    (leads_change fun _ _ h => ⟨⟨h.1.stocked, h.1.annealing_eq⟩, h.2⟩) fun _ => ?_
  refine leads_part_bind fun g s h => ?_
  rw [h.1.annealing_eq]
  exact leads_pure fun _ _ h' => by rw [h'.1, h'.2]; exact h

omit [MoveGenerator G M V K] [Model M V K] in
theorem advanceDeluge_decides (reference : K) :
    Leads (fun g s => g.Votes I ∧ P s) (advanceDeluge reference : Act (Group G K) M K Unit)
      (fun _ g s => g.Decides I ∧ P s) (fun _ s => P s) := by
  refine leads_of_at fun g s ⟨hg, hs⟩ => ?_
  refine (advanceDeluge_leads reference g s).mono (fun _ _ h => h) ?_ fun _ _ h => h.elim
  rintro _ _ _ ⟨rfl, rfl⟩
  exact ⟨⟨⟨⟨hg.stocked, hg.annealing_eq⟩, hg.constructed⟩, DelugeSchedule.bound_advance _ _⟩, hs⟩

omit [MoveGenerator G M V K] in
/-- The water level decides on a move as it was when the move was drawn. -/
theorem decide_under {g : Group G K} (hg : g.Decides I) {sol : Solution M K} (index : Nat)
    (delta reference : K) :
    Leads (At g sol) (decide index delta reference)
      (fun decision g' s => (g'.Decides I ∧ s = sol) ∧ (decision = .accepted →
        ∃ total, Model.totalValue sol.model = .ok total ∧ g.deluge.accepts total delta = true))
      (fun _ s => s = sol) := by
  unfold decide
  refine leads_solution_bind_at (leads_lift_bind (fun _ _ h => h.2) fun total htotal => ?_)
  refine leads_part_bind_at ?_
  rw [hg.annealing_eq]
  refine Leads.bind (Q := fun accepted g' s => (g'.Decides I ∧ s = sol) ∧
    (accepted = true → g.deluge.accepts total delta = true)) ?_ fun accepted => ?_
  · unfold decideByDeluge
    refine leads_part_bind_at ?_
    have hstart : ∀ g' s, At g sol g' s → g'.Decides I ∧ s = sol := fun _ _ h => ⟨h.1 ▸ hg, h.2⟩
    split
    · exact leads_pure fun _ _ h => ⟨hstart _ _ h, fun hfalse => by cases hfalse⟩
    rename_i haccepts
    have hadvance : Leads (fun g s => g.Decides I ∧ s = sol)
        (advanceDeluge reference >>= fun _ => pure true : Act (Group G K) M K Bool)
        (fun accepted g' s => (g'.Decides I ∧ s = sol) ∧
          (accepted = true → g.deluge.accepts total delta = true)) (fun _ s => s = sol) := by
      refine Leads.bind ((advanceDeluge_decides (P := (· = sol)) reference).mono_pre
        fun _ _ h => ⟨h.1.toVotes, h.2⟩) fun _ => leads_pure fun _ _ h => ⟨h, fun _ => ?_⟩
      simpa using haccepts
    dsimp only
    split
    · refine leads_solution_bind_any fun now => ?_
      refine Leads.bind ((carries_decides.spares (P := (· = sol)) (spares_update fun _ _ =>
        Heuristic.generators_improve) (quiet_onPart _)).mono hstart (fun _ _ _ h => h)
        fun _ _ h => h.2) fun _ => hadvance
    · exact hadvance.mono_pre hstart
  · refine leads_pure fun _ _ h => ⟨h.1, fun haccepted => ⟨total, htotal, h.2 ?_⟩⟩
    cases accepted with
    | true => rfl
    | false => cases haccepted

omit [MoveGenerator G M V K] in
theorem weigh_under {g : Group G K} (hg : g.Decides I) {level : K}
    (hlevel : g.deluge.bound = some level) {sol : Solution M K} (reference : K) (index : Nat)
    {c : Candidate V K} (hc : Φ sol.model c) :
    Leads (At g sol) (weigh reference (.candidate index c))
      (fun p? g s => (g.Decides I ∧ s = sol) ∧ Sunk Φ (some level) sol.model p?)
      (fun _ s => s = sol) := by
  cases c with
  | lazy c =>
    unfold weigh criterion
    simp only [bind_assoc]
    refine leads_get_bind fun g' w h => ?_
    dsimp only
    refine Leads.bind (Q := fun _ => At g sol) (leads_set fun _ _ _ => h) fun _ => leads_pure ?_
    rintro _ _ ⟨rfl, rfl⟩
    refine ⟨⟨hg, rfl⟩, sunk_lazy hc fun _ _ => ?_⟩
    rw [h.1, hlevel, hg.annealing_eq]
    rfl
  | eager m =>
    refine Leads.bind (decide_under hg index m.delta reference) fun decision => ?_
    cases decision with
    | dropped => exact leads_pure fun _ _ h => ⟨h.1, sunk_none⟩
    | refused =>
      refine Leads.bind ((carries_decides.change (f := Heuristic.fail) (P := (· = sol))
        fun _ => rfl).mono (fun _ _ h => h.1) (fun _ _ _ h => h) fun _ _ h => h.2) fun _ => ?_
      exact leads_pure fun _ _ h => ⟨h, sunk_none⟩
    | accepted =>
      refine leads_of_at fun g' s ⟨hkept, haccepts⟩ => ?_
      obtain ⟨total, htotal, haccepts⟩ := haccepts rfl
      have hsunk := sunk_move hlevel htotal hc haccepts
      refine Leads.bind (((carries_decides.spares (P := (· = sol)) (spares_reportAccept _ _ _ _)
        (quiet_reportAccept _ _ _ _)).mono_error fun _ _ h => h.2).at hkept) fun _ => ?_
      exact leads_pure fun _ _ h => ⟨h, hsunk⟩

/-- The level at which an attempt draws its candidate, if it draws one. -/
def drawnLevel? (t : Group G K × World M K) : Option K :=
  match (onHeuristic drawCandidate : Act (Group G K) M K (Drawn V K)) t with
  | .ok (.candidate _ _) t' => t'.1.deluge.bound
  | _ => none

/-- The level at which a call draws its last candidate, which is the one it decides by. An offer of
construction has none. -/
def level? (t : Group G K × World M K) : Option K :=
  match opening t with
  | .ok (.inr reference) t' => Attempt.lookLast drawnLevel? (attempt reference) maxAttempts t'
  | _ => none

theorem attempt_under (hG : MoveGenerator.Supplies G I Φ) (reference : K)
    (t : Group G K × World M K) (ht : t.1.Decides I) :
    Attempt.Ensures (· = t) (attempt reference : Act (Group G K) M K (Option (Proposal V K)))
      (fun p? t' => (t'.1.Decides I ∧ t'.2.solution = t.2.solution) ∧
        Sunk Φ (drawnLevel? t) t.2.solution.model p?)
      (fun t' => t'.2.solution = t.2.solution) := by
  have hdraw := (carries_decides.draw (P := (· = t.2.solution)) hG).run (t := t) ⟨ht, rfl⟩
  rw [attempt_eq]
  refine Attempt.ensures_bind_at (fun d t' hrun => ?_) fun _ _ hrun => (hdraw.of_error rfl hrun).2
  obtain ⟨hkept, hcandidate⟩ := hdraw.of_ok rfl hrun
  cases d with
  | yield => exact Attempt.ensures_pure fun _ ht' => ht' ▸ ⟨hkept, sunk_none⟩
  | empty => exact Attempt.ensures_pure fun _ ht' => ht' ▸ ⟨hkept, sunk_none⟩
  | candidate index c =>
    obtain ⟨level, hlevel⟩ := Option.ne_none_iff_exists'.1 hkept.1.bound_ne
    have hdrawn : drawnLevel? t = some level := by
      unfold drawnLevel?
      rw [hrun]
      exact hlevel
    rw [hdrawn]
    exact (weigh_under hkept.1 hlevel reference index (hkept.2 ▸ hcandidate index c rfl)).run
      ⟨rfl, hkept.2⟩

omit [MoveGenerator G M V K] in
theorem openVote_decides :
    Leads (fun g s => g.Votes I ∧ P s) (openVote : Act (Group G K) M K K)
      (fun _ g s => g.Decides I ∧ P s) (fun _ s => P s) := by
  unfold openVote
  refine leads_solution_bind_any fun sol => leads_lift_bind (fun _ _ h => h.2) fun reference _ => ?_
  refine leads_part_bind fun g s h => ?_
  split
  · exact Leads.bind ((advanceDeluge_decides (P := P) reference).at h) fun _ =>
      leads_pure fun _ _ h => h
  · rename_i hbound
    refine leads_pure ?_
    rintro _ _ ⟨rfl, rfl⟩
    exact ⟨⟨h.1, fun hnone => hbound (hnone ▸ rfl)⟩, h.2⟩

omit [MoveGenerator G M V K] in
/-- With nothing to construct a call begins with the vote. -/
theorem opening_decides {g : Group G K} {sol : Solution M K} (hg : g.Alone I)
    (hdone : g.constructed = true ∨ Construction.openVariables sol.model = .ok []) :
    Leads (At g sol) (opening : Act (Group G K) M K (Proposal V K ⊕ K))
      (fun answer g s => (∃ reference, answer = .inr reference) ∧ g.Decides I ∧ s = sol)
      (fun _ s => s = sol) := by
  have hvote : Leads (fun g s => g.Votes I ∧ s = sol)
      (openVote >>= fun reference => pure (.inr reference) :
        Act (Group G K) M K (Proposal V K ⊕ K))
      (fun answer g s => (∃ reference, answer = .inr reference) ∧ g.Decides I ∧ s = sol)
      (fun _ s => s = sol) :=
    Leads.bind (openVote_decides (P := (· = sol))) fun reference =>
      leads_pure fun _ _ h => ⟨⟨reference, rfl⟩, h⟩
  unfold opening
  refine leads_part_bind_at ?_
  split
  · rename_i hconstructed
    exact hvote.mono_pre fun _ _ h => ⟨h.1 ▸ ⟨hg, hconstructed⟩, h.2⟩
  rename_i hconstructing
  have hopen := hdone.resolve_left hconstructing
  refine Leads.bind (Q := fun p? g s => p? = none ∧ g.Alone I ∧ s = sol) ?_ fun p? => ?_
  · refine leads_within fun g' s h => ?_
    rw [h.2]
    unfold Construction.select
    refine leads_solution_bind_at (leads_lift_bind_of_ok hopen (leads_pure fun _ _ h' => ?_))
    exact ⟨rfl, ⟨h.1 ▸ hg.stocked, h.1 ▸ hg.annealing_eq⟩, h'.2⟩
  cases p? with
  | some p => exact leads_pure fun _ _ h => by cases h.1
  | none =>
    refine Leads.bind (Q := fun _ g s => g.Votes I ∧ s = sol)
      (leads_change fun _ _ h => ⟨⟨⟨h.2.1.stocked, h.2.1.annealing_eq⟩, rfl⟩, h.2.2⟩) fun _ => ?_
    exact leads_solution_bind_any fun _ => leads_report_bind fun _ => hvote

theorem select_under (hG : MoveGenerator.Supplies G I Φ) (t : Group G K × World M K)
    (ht : t.1.Alone I) (hdone : t.1.constructed = true ∨
      Construction.openVariables t.2.solution.model = .ok []) :
    Attempt.Ensures (· = t) (select : Act (Group G K) M K (Option (Proposal V K)))
      (fun p? t' => (t'.1.Votes I ∧ t'.2.solution = t.2.solution) ∧
        Sunk Φ (level? t) t.2.solution.model p?)
      (fun t' => t'.2.solution = t.2.solution) := by
  have hopening := (opening_decides ht hdone).run (t := t) ⟨rfl, rfl⟩
  rw [select_eq]
  refine Attempt.ensures_bind_at (fun answer t₁ hrun => ?_) fun _ _ hrun => hopening.of_error rfl hrun
  obtain ⟨⟨reference, rfl⟩, hdecides, hsolution⟩ := hopening.of_ok rfl hrun
  have hlevel : level? t =
      Attempt.lookLast drawnLevel? (attempt reference) maxAttempts t₁ := by
    unfold level?
    rw [hrun]
  rw [hlevel]
  have hloop := Attempt.ensures_firstOf_lookLast drawnLevel?
    (P := fun t' => t'.1.Decides I ∧ t'.2.solution = t.2.solution)
    (Q := fun level? p t' => (t'.1.Decides I ∧ t'.2.solution = t.2.solution) ∧
      Sunk Φ level? t.2.solution.model (some p))
    (fun t' ht' => (attempt_under hG reference t' ht'.1).mono (fun _ h => h) (fun p? t'' h => by
      rw [ht'.2] at h
      cases p? with
      | none => exact h.1
      | some p => exact h) fun _ h => h.trans ht'.2) maxAttempts t₁ ⟨hdecides, hsolution⟩
  refine hloop.mono_post fun p? t' h => ?_
  cases p? with
  | none => exact ⟨⟨h.1.toVotes, h.2⟩, sunk_none⟩
  | some p => exact ⟨⟨h.1.1.toVotes, h.1.2⟩, h.2⟩

end Group

end LocalSearch
