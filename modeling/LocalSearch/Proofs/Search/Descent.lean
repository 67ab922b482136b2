import Mathlib
import LocalSearch.Proofs.Search.Configured
import LocalSearch.Proofs.Selection.Limits
/-!
# Searches that only descend

Hill climbing proposes moves that do not make things worse, and lazy changes with a rule that takes
back what would. On models on which its candidates add up, a pass of a complete assignment therefore
never raises the total value, and if it lowers it, the new state is better than the best one and is
kept. So before every pass the current state is itself a best one.

* `Engine.not_breaks`: on an additive model no commit breaks off.
* `Solution.AtBest`: the current state is complete and has the total value of the best one.
  `Engine.Passed.atBest`: a pass of proposals that lead downhill keeps this.
* `Solver.descends`: searches by hill climbing, by induction over their steps.
-/

namespace LocalSearch

open Act
open Model.Tables (assigned kept)

variable {G M V K : Type} [Field K] [LinearOrder K] [Scalar.Functions K]

/-! ## The strategy -/

namespace AnyStrategy

/-- Hill climbing over generators of a kind. -/
def Climbs (I : G → Prop) (t : AnyStrategy G K) : Prop :=
  ∃ h, t = .basic (.hillClimbing h) ∧ h.Stocked I

variable [Model M V K] [MoveGenerator G M V K] {I : G → Prop} {Φ : M → Candidate V K → Prop}
  {P : Solution M K → Prop}

theorem init_climbs (hG : MoveGenerator.Supplies G I Φ) :
    Leads (fun t s => t.Climbs I ∧ P s) (Strategy.init : Act (AnyStrategy G K) M K Unit)
      (fun _ t s => t.Climbs I ∧ P s) (fun t s => t.Climbs I ∧ P s) := by
  show Leads _ AnyStrategy.init _ _
  unfold AnyStrategy.init
  refine leads_part_bind fun t s ⟨⟨h, ht, hstocked⟩, hs⟩ => ?_
  subst ht
  refine leads_inside ?_
  show Leads _ BasicStrategy.init _ _
  unfold BasicStrategy.init
  refine leads_part_bind_at (leads_inside ?_)
  exact ((HillClimbing.init_stocked hG).mono (fun _ _ h => h)
    (fun _ h' _ hh => ⟨⟨h', rfl, hh.1⟩, hh.2⟩) fun h' _ hh => ⟨⟨h', rfl, hh.1⟩, hh.2⟩).at
    ⟨hstocked, hs⟩

theorem select_climbs (hG : MoveGenerator.Supplies G I Φ) :
    Leads (fun t s => t.Climbs I ∧ P s)
      (Strategy.select : Act (AnyStrategy G K) M K (Option (Proposal V K)))
      (fun p? t s => (t.Climbs I ∧ P s) ∧
        ∀ p, p? = some p → p.Respects Φ Downhill s.model)
      (fun t s => t.Climbs I ∧ P s) := by
  show Leads _ AnyStrategy.select _ _
  unfold AnyStrategy.select
  refine leads_part_bind fun t s ⟨⟨h, ht, hstocked⟩, hs⟩ => ?_
  subst ht
  refine leads_inside ?_
  show Leads _ BasicStrategy.select _ _
  unfold BasicStrategy.select
  refine leads_part_bind_at (leads_inside ?_)
  exact ((HillClimbing.select_downhill hG).mono (fun _ _ h => h)
    (fun _ h' _ hh => ⟨⟨⟨h', rfl, hh.1.1⟩, hh.1.2⟩, hh.2⟩)
    fun h' _ hh => ⟨⟨h', rfl, hh.1⟩, hh.2⟩).at ⟨hstocked, hs⟩

theorem climbs_bestSaved {t : AnyStrategy G K} (ht : t.Climbs I) :
    (Strategy.bestSaved M t).Climbs I := by
  obtain ⟨h, rfl, hstocked⟩ := ht
  exact ⟨_, rfl, hstocked⟩

end AnyStrategy

/-! ## Passes -/

variable [Model M V K] [Model.Tabular M] {J : M → Prop} {Φ : M → Candidate V K → Prop}
  {D : Set K}

/-- The assignment and the best one are complete and have the same total value, which is in `D`. -/
structure Solution.AtBest (J : M → Prop) (D : Set K) (s : Solution M K) : Prop where
  model : J s.model
  sound : Model.Sound s.model
  complete : Model.unassignedCount s.model = 0
  kept : ∃ k, kept s.model = some k ∧ k.openCount = 0
  best : ∃ b, s.best = some b ∧ b.complete = true ∧ Model.totalValue s.model = .ok b.value ∧
    b.value ∈ D

/-- A complete assignment that is kept is a best one. -/
theorem Solution.Saved.atBest {s s' : Solution M K} (h : s.Saved s')
    (hmodel : ∀ total, Model.totalValue (Model.saveBest s.model) = .ok total →
      J (Model.saveBest s.model) ∧ total ∈ D)
    (hsound : Model.Sound s.model) (hcomplete : Model.unassignedCount s.model = 0) :
    s'.AtBest J D := by
  obtain ⟨hsteady, hcount⟩ := h.steady hsound
  obtain ⟨b, hb, rfl⟩ := h
  obtain ⟨-, htotal, hb⟩ := Solution.of_snapshot_eq_ok hb
  obtain ⟨hmodel, hD⟩ := hmodel b.value htotal
  have hzero := hcount.trans hcomplete
  refine ⟨hmodel, hsteady.sound, hzero, ⟨assigned s.model, ?_, ?_⟩, b, rfl, ?_, htotal, hD⟩
  · exact Model.Tabular.kept_saveBest _
  · rw [← Model.Tabular.unassignedCount_eq]
    exact hcomplete
  · rw [hb]
    exact beq_iff_eq.2 hzero

namespace Engine

variable {S : Type} {e e' : Engine S M V K} {s s' : Solution M K} {p : Proposal V K} {time : K}

omit [Model.Tabular M] in
/-- On an additive model every state can be compared and recorded. -/
theorem not_unsavable_of_additive (hJ : Model.Additive J Φ) (hgeneral : e.comparator = .general)
    (hs : J s.model) : ¬ e.Unsavable s := by
  obtain ⟨total, htotal⟩ := hJ.total hs
  rintro (hbetter | hsnapshot)
  · obtain ⟨better, h⟩ := Comparator.exists_general_isBetter htotal
    exact hbetter better (hgeneral ▸ h)
  · obtain ⟨total, htotal⟩ := hJ.total (hJ.saveBest hs)
    obtain ⟨info, hinfo⟩ := hJ.info (hJ.saveBest hs)
    obtain ⟨b, hb⟩ := Solution.exists_snapshot
      (s := { s with model := Model.saveBest s.model }) htotal hinfo
    exact hsnapshot b hb

omit [Model.Tabular M] in
/-- On an additive model no commit breaks off. -/
theorem not_breaks (hJ : Model.Additive J Φ) (hgeneral : e.comparator = .general)
    (hs : J s.model) (hfrom : p.From Φ s.model) : ¬ Breaks p time e s := by
  obtain ⟨total, htotal⟩ := hJ.total hs
  obtain ⟨c, m', total', hrun, hm', -⟩ := hJ.commit_respects (R := fun _ _ => True) hs htotal
    ⟨hfrom, fun _ _ => by cases p <;> simp [Proposal.Heeds]⟩
  rintro (hnone | ⟨delta, m, happlied, hunsavable⟩)
  · exact hnone c m' hrun
  · cases hrun.symm.trans happlied
    exact not_unsavable_of_additive hJ hgeneral hm' hunsavable

/-- A complete assignment with a total value below that of the best one is kept. -/
theorem due_of_lt {b : Snapshot K} {k : Table V} {total : K} (hgeneral : e.comparator = .general)
    (hcomplete : Model.unassignedCount s.model = 0) (hkept : kept s.model = some k)
    (hk : k.openCount = 0) (hbest : s.best = some b) (htotal : Model.totalValue s.model = .ok total)
    (hlt : total < b.value) : e.Due s := by
  constructor
  · rw [hcomplete]
    simp only [GeneralConfig.withinLimit, Bool.or_eq_true, decide_eq_true_eq]
    omega
  · have hequal : Model.unassignedCount s.model = Model.bestUnassignedCount s.model := by
      rw [hcomplete, Model.Tabular.bestUnassignedCount_eq hkept, hk]
    rw [hgeneral]
    simp only [Comparator.general, hbest, if_pos hequal]
    exact bind_eq_ok_iff.2 ⟨total, htotal, congrArg Except.ok (decide_eq_true hlt)⟩

variable [Strategy S M V K]

/-- A complete assignment that is at least as good as the best one is a best one after the
opportunity to keep it. -/
theorem SaveStep.atBest (h : SaveStep e s e' s') (hJ : Model.Additive J Φ)
    (hgeneral : e.comparator = .general) (hmodel : J s.model) (hsound : Model.Sound s.model)
    (hcomplete : Model.unassignedCount s.model = 0)
    (hkept : ∃ k, kept s.model = some k ∧ k.openCount = 0) {b : Snapshot K}
    (hbest : s.best = some b) (hb : b.complete = true) {total : K}
    (htotal : Model.totalValue s.model = .ok total) (hle : total ≤ b.value) (hD : total ∈ D) :
    s'.AtBest J D := by
  cases h with
  | skipped hdue =>
    obtain ⟨k, hk, hopen⟩ := hkept
    have hequal : total = b.value := le_antisymm hle <| not_lt.1 fun hlt =>
      hdue (due_of_lt hgeneral hcomplete hk hopen hbest htotal hlt)
    subst hequal
    exact ⟨hmodel, hsound, hcomplete, ⟨k, hk, hopen⟩, b, hbest, hb, htotal, hD⟩
  | saved hdue hsaved =>
    refine hsaved.atBest (fun total' htotal' => ?_) hsound hcomplete
    rw [hJ.total_saveBest hmodel, htotal] at htotal'
    cases htotal'
    exact ⟨hJ.saveBest hmodel, hD⟩

variable [IsStrictOrderedRing K]

/-- Committing a proposal that leads downhill takes a best state to a best state. -/
theorem Committed.atBest (h : Committed p time e s e' s') (hJ : Model.Additive J Φ)
    (hfits : ∀ model c, Φ model c → c.Fits model) (hD : IsLowerSet D)
    (hgeneral : e.comparator = .general) (hs : s.AtBest J D)
    (hp : p.Respects Φ Downhill s.model) : s'.AtBest J D := by
  obtain ⟨b, hbest, hb, htotal, hbD⟩ := hs.best
  obtain ⟨c, m, total', hrun, hm, htotal', hc⟩ :=
    hJ.commit_respects hs.model htotal hp
  have hfitting : p.From Candidate.Fits s.model := by
    cases p with
    | move mv => exact hfits _ _ hp.1
    | lazy c criterion => exact hfits _ _ hp.1
  have hsound : Model.Sound m :=
    (Proposal.commit_ensures Model.invariant_sound p).of_ok hs.sound hrun
  have hcomplete : Model.unassignedCount m = 0 :=
    ((Proposal.commit_unassignedCount hs.sound hfitting).of_ok rfl hrun).trans hs.complete
  have hkept : ∃ k, kept m = some k ∧ k.openCount = 0 := by
    have hbecomes := (Proposal.commit_ensures (Model.invariant_becomes s.model) p).of_ok
      ⟨rfl, rfl, rfl⟩ hrun
    obtain ⟨k, hk, hopen⟩ := hs.kept
    exact ⟨k, hbecomes.kept.trans hk, hopen⟩
  cases h with
  | applied happlied hsave =>
    cases hrun.symm.trans happlied
    obtain ⟨rfl, hdelta⟩ := hc
    have hle : b.value + _ ≤ b.value := add_le_of_nonpos_right hdelta
    exact hsave.atBest hJ hgeneral hm hsound hcomplete hkept hbest hb htotal' hle (hD hle hbD)
  | rejected hrejected =>
    cases hrun.symm.trans hrejected
    cases hc
    exact ⟨hm, hsound, hcomplete, hkept, b, hbest, hb, htotal', hbD⟩

theorem Passed.atBest (h : Passed (fun model p => p.Respects Φ Downhill model) time e s e' s')
    (hJ : Model.Additive J Φ) (hfits : ∀ model c, Φ model c → c.Fits model) (hD : IsLowerSet D)
    (hgeneral : e.comparator = .general) (hs : s.AtBest J D) : s'.AtBest J D := by
  cases h with
  | idle => exact ⟨hs.model, hs.sound, hs.complete, hs.kept, hs.best⟩
  | committed hp h => exact h.atBest hJ hfits hD hgeneral hs hp

variable {G : Type} [MoveGenerator G M V K] {I : G → Prop}

/-- An engine that compares by unassigned variables first, with hill climbing over generators of a
kind. -/
def Climbs (I : G → Prop) (e : Engine (AnyStrategy G K) M V K) : Prop :=
  e.strategy.Climbs I ∧ e.comparator = .general

omit [IsStrictOrderedRing K] [Model.Tabular M] in
theorem SaveStep.climbs {e e' : Engine (AnyStrategy G K) M V K} (h : SaveStep e s e' s')
    (he : e.Climbs I) : e'.Climbs I := by
  cases h with
  | skipped => exact he
  | saved => exact ⟨AnyStrategy.climbs_bestSaved he.1, he.2⟩

omit [IsStrictOrderedRing K] [Model.Tabular M] in
theorem Passed.climbs {Ψ : M → Proposal V K → Prop} {e e' : Engine (AnyStrategy G K) M V K}
    (h : Passed Ψ time e s e' s') (he : e.Climbs I) : e'.Climbs I := by
  cases h with
  | idle => exact he
  | committed _ h =>
    cases h with
    | applied _ hsave => exact hsave.climbs he
    | rejected _ => exact he

omit [IsStrictOrderedRing K] in
/-- The opening keeps a complete assignment as the best one, if there was none before. -/
theorem opening_atBest (hG : MoveGenerator.Supplies G I Φ) (m : M)
    (hstart : ∀ total, Model.totalValue (Model.saveBest m) = .ok total → J (Model.saveBest m))
    (hsound : Model.Sound m) (hcomplete : Model.unassignedCount m = 0) :
    Leads (fun e s => e.Climbs I ∧ s.model = m ∧ s.best = none)
      (opening : Act (Engine (AnyStrategy G K) M V K) M K Bool)
      (fun _ e s => e.Climbs I ∧ s.AtBest J Set.univ) (fun _ _ => True) := by
  have hinit := leads_onStrategy (V := V)
    (F := fun e : Engine (AnyStrategy G K) M V K => e.comparator = .general) (fun _ _ h => h)
    (AnyStrategy.init_climbs (P := fun s : Solution M K => s.model = m ∧ s.best = none) hG)
  have hextensions := initExtensions_leads (M := M) (α := K) (V := V) (F := Climbs I)
    (I := fun s : Solution M K => s.model = m ∧ s.best = none) fun _ _ h => h
  refine (opening_leads (E := fun _ _ => True)
    (hinit.mono (fun _ _ h => ⟨h.1.2, h.1.1, h.2⟩) (fun _ _ _ h => ⟨⟨h.2.1, h.1⟩, h.2.2⟩)
      fun _ _ _ => trivial)
    (hextensions.mono_error fun _ _ _ => trivial) (fun _ _ _ _ => trivial)
    fun _ _ _ _ _ _ => trivial).mono_post ?_
  rintro _ e' s' ⟨⟨e, s, ⟨he, rfl, hnone⟩, hsave⟩, -⟩
  refine ⟨hsave.climbs he, ?_⟩
  cases hsave with
  | skipped hdue =>
    refine absurd ⟨?_, ?_⟩ hdue
    · rw [hcomplete]
      simp only [GeneralConfig.withinLimit, Bool.or_eq_true, decide_eq_true_eq]
      omega
    · rw [he.2]
      simp only [Comparator.general, hnone]
  | saved _ hsaved =>
    exact hsaved.atBest (fun total h => ⟨hstart total h, trivial⟩) hsound hcomplete

/-- Whether or not a turn of hill climbing ends the search, it leaves a best state. -/
theorem turn_atBest (hG : MoveGenerator.Supplies G I Φ) (hJ : Model.Additive J Φ)
    (hfits : ∀ model c, Φ model c → c.Fits model) (hD : IsLowerSet D) (stop : Bool) (time : K) :
    Leads (fun e s => e.Climbs I ∧ s.AtBest J D)
      (turn stop time : Act (Engine (AnyStrategy G K) M V K) M K (Option Ending))
      (fun ending? e s => match ending? with
        | some _ => s.AtBest J D
        | none => e.Climbs I ∧ s.AtBest J D)
      (fun _ s => s.AtBest J D) := by
  have hselect := leads_onStrategy (V := V)
    (F := fun e : Engine (AnyStrategy G K) M V K => e.comparator = .general) (fun _ _ h => h)
    (AnyStrategy.select_climbs (P := fun s : Solution M K => s.AtBest J D) hG)
  refine (turn_leads stop time (P := fun e s => e.Climbs I ∧ s.AtBest J D)
    (Q := fun e s => e.Climbs I ∧ s.AtBest J D) (E := fun _ s => s.AtBest J D)
    (Ψ := fun model p => p.Respects Φ Downhill model)
    (hselect.mono (fun _ _ h => ⟨h.1.2, h.1.1, h.2⟩)
      (fun _ _ _ h => ⟨⟨⟨h.2.1.1, h.1⟩, h.2.1.2⟩, h.2.2⟩) fun _ _ h => h.2.2)
    (hears_of (fun _ _ _ h => h) fun _ _ h => h.2) ?_).mono_post ?_
  · intro e s p s' ⟨he, hs⟩ hp _ hbreaks
    exact absurd hbreaks (not_breaks hJ he.2 hs.model hp.1)
  · intro ending? e' s' h
    cases ending? with
    | some ending => exact h.2
    | none =>
      obtain ⟨e, s, ⟨he, hs⟩, hpassed⟩ := h
      exact ⟨hpassed.climbs he, hpassed.atBest hJ hfits hD he.2 hs⟩

end Engine

/-! ## Searches -/

/-- The assignment and the best one are complete, and both have this total value. -/
structure Solution.IsBest (s : Solution M K) (value : K) : Prop where
  complete : Model.unassignedCount s.model = 0
  total : Model.totalValue s.model = .ok value
  best_complete : s.isBestComplete = true
  best_value : s.bestValue = value

theorem Solution.AtBest.isBest {s : Solution M K} (h : s.AtBest J D) :
    ∃ value ∈ D, s.IsBest value := by
  obtain ⟨b, hbest, hb, htotal, hD⟩ := h.best
  refine ⟨b.value, hD, h.complete, htotal, ?_, ?_⟩
  · simp [Solution.isBestComplete, hbest, hb]
  · simp [Solution.bestValue, hbest]

namespace Solver

/-- Before every pass of a search, and in every state from then on, the current state is a best one,
and its total value is never above what it was before. -/
def Descends {S : Type} [Strategy S M V K] (s : Solver S M V K) : Prop :=
  ∀ s₀ s₁ s₂ : Solver S M V K, s.start = .ok s₀ → Steps s₀ s₁ → s₁.BeforePass → Steps s₁ s₂ →
    ∃ v₁ v₂, s₁.world.solution.IsBest v₁ ∧ s₂.world.solution.IsBest v₂ ∧ v₂ ≤ v₁

variable [IsStrictOrderedRing K] {G : Type} [MoveGenerator G M V K] {I : G → Prop}
  {s s' : Solver (AnyStrategy G K) M V K} {e : Engine (AnyStrategy G K) M V K}

/-- Once a search by hill climbing is at a best state, it stays at best states. -/
theorem atBest_of_steps (hG : MoveGenerator.Supplies G I Φ) (hJ : Model.Additive J Φ)
    (hfits : ∀ model c, Φ model c → c.Fits model) (hD : IsLowerSet D)
    {w : Worker (AnyStrategy G K) M V K} (hworker : s.worker = some w)
    (h : s.During (fun _ _ => False) (fun e s => e.Climbs I ∧ s.AtBest J D)
      (fun _ s => s.AtBest J D)) (hsteps : Steps s s') : s'.world.solution.AtBest J D := by
  have hlater := h.steps (fun _ h => h.elim) (Engine.turn_atBest hG hJ hfits hD) hsteps
  obtain ⟨w', hworker'⟩ := worker_of_steps hworker hsteps
  exact hlater.solution hworker' (fun _ _ h => h.elim) (fun _ _ h => h.2) fun _ _ h => h

theorem descends (hG : MoveGenerator.Supplies G I Φ) (hJ : Model.Additive J Φ)
    (hfits : ∀ model c, Φ model c → c.Fits model) (hengine : s.engine = some e) (he : e.Climbs I)
    (hnone : s.world.solution.best = none)
    (hstart : ∀ total, Model.totalValue (Model.saveBest s.world.solution.model) = .ok total →
      J (Model.saveBest s.world.solution.model))
    (hsound : Model.Sound s.world.solution.model)
    (hcomplete : Model.unassignedCount s.world.solution.model = 0) : s.Descends := by
  rintro s₀ s₁ s₂ hrun h₁ ⟨e₁, pass₁, hworker₁⟩ h₂
  obtain ⟨_, hengine', hworker, hworld⟩ := worker_of_start hrun
  cases hengine.symm.trans hengine'
  have hstarted : During (fun e t => e.Climbs I ∧ t.model = s.world.solution.model ∧ t.best = none)
      (fun e s => e.Climbs I ∧ s.AtBest J Set.univ) (fun _ _ => True) s₀ := by
    intro w hw
    cases hworker.symm.trans hw
    rw [hworld]
    exact ⟨he, rfl, hnone⟩
  -- first up to the first of the two states, to which no limit is known
  have hfirst : e₁.Climbs I ∧ s₁.world.solution.AtBest J Set.univ :=
    hstarted.steps (Engine.opening_atBest hG _ hstart hsound hcomplete)
      (fun stop time => (Engine.turn_atBest hG hJ hfits isLowerSet_univ stop time).mono
        (fun _ _ h => h) (fun ending? _ _ h => by cases ending? with
          | some _ => trivial
          | none => exact h) fun _ _ _ => trivial) h₁ _ hworker₁
  obtain ⟨v₁, -, hbest₁⟩ := hfirst.2.isBest
  -- then on from there, with the values up to the one there
  obtain ⟨b, hb, hcomplete₁, htotal, -⟩ := hfirst.2.best
  cases htotal.symm.trans hbest₁.total
  have hlater : s₂.world.solution.AtBest J (Set.Iic b.value) := by
    refine atBest_of_steps hG hJ hfits (isLowerSet_Iic _) hworker₁ (fun w hw => ?_) h₂
    cases hworker₁.symm.trans hw
    exact ⟨hfirst.1, hfirst.2.model, hfirst.2.sound, hfirst.2.complete, hfirst.2.kept, b, hb,
      hcomplete₁, htotal, le_refl _⟩
  obtain ⟨v₂, hle, hbest₂⟩ := hlater.isBest
  exact ⟨b.value, v₂, hbest₁, hbest₂, hle⟩

/-- Hill climbing from a complete assignment only descends: with all generators of this library on
independent penalties, and on timetables without clashes with those that do not swap. -/
theorem hill_climbing_descends :
    (∀ (s : Solver (AnyStrategy (Generator Empty K) K) (Penalty K) Nat K)
        (e : Engine (AnyStrategy (Generator Empty K) K) (Penalty K) Nat K)
        (h : HillClimbing (Generator Empty K) K),
      s.engine = some e → e.strategy = .basic (.hillClimbing h) → e.comparator = .general →
      s.world.solution.best = none →
      s.world.solution.model.assigned.length = s.world.solution.model.table.length →
      Model.unassignedCount s.world.solution.model = 0 → s.Descends) ∧
    ∀ (s : Solver (AnyStrategy (Generator Empty K) K) (Timetable K) (Placement K) K)
        (e : Engine (AnyStrategy (Generator Empty K) K) (Timetable K) (Placement K) K)
        (h : HillClimbing (Generator Empty K) K),
      s.engine = some e → e.strategy = .basic (.hillClimbing h) → e.comparator = .general →
      h.heuristic.sequence.Stocked Generator.Swapless → s.world.solution.best = none →
      s.world.solution.model.assigned.length = s.world.solution.model.events.length →
      s.world.solution.model.hasHardConflicts = .ok false →
      Model.unassignedCount s.world.solution.model = 0 → s.Descends := by
  constructor
  · intro s e h hengine hstrategy hgeneral hnone hlength hcomplete
    refine descends (MoveGenerator.Proposes.supplies Generator.proposes_fits)
      (Penalty.additive_filled s.world.solution.model.table) (fun _ _ h => h) hengine
      ⟨⟨h, hstrategy, fun _ _ => trivial⟩, hgeneral⟩ hnone (fun total htotal => ?_)
      (Penalty.clashFree _ _) hcomplete
    exact Penalty.filled_of_totalValue (p := Model.saveBest s.world.solution.model) hlength htotal
  · intro s e h hengine hstrategy hgeneral hstocked hnone hlength hconflicts hcomplete
    have hsound := Timetable.clashFree_of_hasHardConflicts hconflicts
    refine descends Generator.supplies_swapless
      (Timetable.additive_compatible s.world.solution.model.events) (fun _ _ h => h.1) hengine
      ⟨⟨h, hstrategy, hstocked⟩, hgeneral⟩ hnone (fun _ _ => ⟨rfl, hlength, hsound⟩) hsound
      hcomplete

/-- Hill climbing by lazy changes, on two events with two placements each. -/
def scheduler : Solver (AnyStrategy (Generator Empty ℚ) ℚ) (Timetable ℚ) (Placement ℚ) ℚ :=
  of (.ofSolution (.ofModel (.pair [⟨0, 0, 1⟩, ⟨1, 0, 5⟩] [⟨2, 0, 1⟩, ⟨3, 0, 5⟩] ⟨1, 0, 5⟩ ⟨3, 0, 5⟩))
    (.standard 0) none)
    (.of (.basic (.hillClimbing (.of
      ⟨[.of "lazy_change" (.basic .lazyChange) 0], .fresh 1, {}, false⟩ 10))))
    fun _ => 0

/-- The scheduler before the opening of its search. -/
def scheduling : Solver (AnyStrategy (Generator Empty ℚ) ℚ) (Timetable ℚ) (Placement ℚ) ℚ :=
  scheduler.start.toOption.getD scheduler

theorem hill_climbing_descends_climber :
    (climber.start = .ok climbing ∧ climbing.work.BeforePass ∧
      ∃ v₁ v₂, climbing.work.world.solution.IsBest v₁ ∧
        climbing.work.work.world.solution.IsBest v₂ ∧ v₂ ≤ v₁) ∧
    scheduler.start = .ok scheduling ∧ scheduling.work.BeforePass ∧
      ∃ v₁ v₂, scheduling.work.world.solution.IsBest v₁ ∧
        scheduling.work.work.world.solution.IsBest v₂ ∧ v₂ ≤ v₁ := by
  have hclimbing : climbing.work.BeforePass := beforePass_of_stage 1 (by decide +kernel)
  have hscheduling : scheduling.work.BeforePass := beforePass_of_stage 1 (by decide +kernel)
  refine ⟨⟨rfl, hclimbing, hill_climbing_descends.1 climber _ _ rfl rfl rfl rfl rfl (by decide)
    climbing climbing.work climbing.work.work rfl (.single (.work _)) hclimbing
    (.single (.work _))⟩, rfl, hscheduling, ?_⟩
  refine hill_climbing_descends.2 scheduler _ _ rfl rfl rfl (fun g hg => ?_) rfl rfl
    (by decide +kernel) (by decide) scheduling scheduling.work scheduling.work.work rfl
    (.single (.work _)) hscheduling (.single (.work _))
  cases List.mem_singleton.1 hg
  trivial

end Solver

end LocalSearch
