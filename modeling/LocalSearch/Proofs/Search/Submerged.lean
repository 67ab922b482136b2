import Mathlib
import LocalSearch.Proofs.Search.Iterations
import LocalSearch.Proofs.Selection.Limits
/-!
# Searches under water

A proposal of great deluge, or of group acceptance in which the water level decides alone, either
does not make things worse or leads below the level that was in force when it was drawn. So a pass
takes the total value to one that is not above the higher of what it was and the level that decided,
and a search never rises above its start and the highest level that has decided so far.

* `AnyStrategy.Floats`: the strategies in question. `AnyStrategy.select_floats`: their selections.
* `Engine.turn_below`: what a turn makes of a bound on the total value.
* `Solver.level?`: the level that decides in the next step of a search.
* `Solver.Sails`: steps of a search with the levels that decide in them. `Solver.Afloat.sails` is the
  induction over them.
-/

namespace LocalSearch

open Act

variable {G M V K : Type} [Field K] [LinearOrder K] [Scalar.Functions K] [Model M V K]

/-! ## The strategies -/

namespace AnyStrategy

omit [Field K] [LinearOrder K] [Scalar.Functions K] in
/-- A great deluge over generators of a kind, or a group over such generators in which the water
level decides alone, with something known of whether its construction is done. -/
def Floats (I : G → Prop) (C : Bool → Prop) : AnyStrategy G K → Prop
  | .basic (.greatDeluge d) => d.Stocked I
  | .basic (.group g) => g.Alone I ∧ C g.constructed
  | _ => False

variable {I : G → Prop} {C C' : Bool → Prop} {t : AnyStrategy G K}

omit [Field K] [LinearOrder K] [Scalar.Functions K] in
theorem Floats.mono (h : t.Floats I C) (hC : ∀ constructed, C constructed → C' constructed) :
    t.Floats I C' := by
  unfold Floats at h ⊢
  split at h
  · exact h
  · exact ⟨h.1, hC _ h.2⟩
  · exact h

variable [MoveGenerator G M V K] {Φ : M → Candidate V K → Prop} {P : Solution M K → Prop}

theorem floats_bestSaved (h : t.Floats I C) : (Strategy.bestSaved M t).Floats I C := by
  unfold Floats at h
  split at h
  · exact h
  · rename_i g
    exact ⟨⟨h.1.stocked, congrArg (Option.map _) h.1.annealing_eq⟩, h.2⟩
  · exact h.elim

theorem init_floats (hG : MoveGenerator.Supplies G I Φ) (hC : ∀ c c', C c → C c') :
    Leads (fun t s => t.Floats I C ∧ P s) (Strategy.init : Act (AnyStrategy G K) M K Unit)
      (fun _ t s => t.Floats I C ∧ P s) (fun _ s => P s) := by
  show Leads _ AnyStrategy.init _ _
  unfold AnyStrategy.init
  refine leads_part_bind fun t s ⟨ht, hs⟩ => ?_
  unfold Floats at ht
  split at ht
  · refine leads_inside ?_
    show Leads _ BasicStrategy.init _ _
    unfold BasicStrategy.init
    refine leads_part_bind_at (leads_inside ?_)
    exact ((GreatDeluge.init_stocked hG).mono (fun _ _ h => h) (fun _ _ _ h => h)
      fun _ _ h => h.2).at ⟨ht, hs⟩
  · refine leads_inside ?_
    show Leads _ BasicStrategy.init _ _
    unfold BasicStrategy.init
    refine leads_part_bind_at (leads_inside ?_)
    exact ((Group.init_alone hG).mono_post fun _ g _ h => ⟨⟨h.1, hC _ g.constructed ht.2⟩, h.2⟩).at
      ⟨ht.1, hs⟩
  · exact ht.elim

/-- The water level that decides in a selection, if there is one. -/
def level? : AnyStrategy G K × World M K → Option K
  | (.basic (.greatDeluge d), w) => GreatDeluge.level? (d, w)
  | (.basic (.group g), w) => Group.level? (g, w)
  | _ => none

theorem select_floats (hG : MoveGenerator.Supplies G I Φ) {t : AnyStrategy G K × World M K}
    (ht : t.1.Floats I fun constructed =>
      constructed = true ∨ Construction.openVariables t.2.solution.model = .ok []) :
    Attempt.Ensures (· = t) (Strategy.select : Act (AnyStrategy G K) M K (Option (Proposal V K)))
      (fun p? t' => (t'.1.Floats I (· = true) ∧ t'.2.solution = t.2.solution) ∧
        Sunk Φ (level? t) t.2.solution.model p?)
      (fun t' => t'.2.solution = t.2.solution) := by
  obtain ⟨strategy, w⟩ := t
  show Attempt.Ensures _ AnyStrategy.select _ _
  unfold AnyStrategy.select
  refine ensures_whole_part_bind ?_
  unfold Floats at ht
  dsimp only at ht ⊢
  split at ht
  · rename_i d
    refine Attempt.ensures_focus fun u hu => ?_
    subst hu
    show Attempt.Ensures _ BasicStrategy.select _ _
    unfold BasicStrategy.select
    refine ensures_whole_part_bind (Attempt.ensures_focus fun u hu => ?_)
    subst hu
    exact GreatDeluge.select_under hG (d, w) ht
  · rename_i g
    refine Attempt.ensures_focus fun u hu => ?_
    subst hu
    show Attempt.Ensures _ BasicStrategy.select _ _
    unfold BasicStrategy.select
    refine ensures_whole_part_bind (Attempt.ensures_focus fun u hu => ?_)
    subst hu
    exact (Group.select_under hG (g, w) ht.1 ht.2).mono (fun _ h => h)
      (fun _ _ h => ⟨⟨⟨h.1.1.toAlone, h.1.1.constructed⟩, h.1.2⟩, h.2⟩) fun _ h => h
  · exact ht.elim

end AnyStrategy

/-! ## Turns -/

variable {I : G → Prop} {C : Bool → Prop} {J : M → Prop} {Φ : M → Candidate V K → Prop}
  {bound level : K}

/-- The total value of the model is not above a bound. -/
def Solution.Below (J : M → Prop) (bound : K) (s : Solution M K) : Prop :=
  J s.model ∧ ∃ total, Model.totalValue s.model = .ok total ∧ total ≤ bound

theorem Solution.Below.mono {s : Solution M K} {bound' : K} (h : s.Below J bound)
    (hle : bound ≤ bound') : s.Below J bound' := by
  obtain ⟨hmodel, total, htotal, hbound⟩ := h
  exact ⟨hmodel, total, htotal, hbound.trans hle⟩

theorem Solution.below_saveBest {s : Solution M K} (hJ : Model.Additive J Φ) (h : s.Below J bound) :
    Solution.Below J bound { s with model := Model.saveBest s.model } := by
  obtain ⟨hmodel, total, htotal, hbound⟩ := h
  exact ⟨hJ.saveBest hmodel, total, (hJ.total_saveBest hmodel).trans htotal, hbound⟩

theorem Solution.keptBySave_below (hJ : Model.Additive J Φ) :
    KeptBySave (Solution.Below J bound : Solution M K → Prop) := by
  intro s hs
  have hsaved := Solution.below_saveBest hJ hs
  rcases s.after_saveBest with h | ⟨b, -, h⟩
  · rw [h]
    exact hsaved
  · rw [h]
    exact hsaved

theorem le_elim_max (bound : K) (level? : Option K) : bound ≤ level?.elim bound (max bound) := by
  cases level? with
  | none => exact le_refl _
  | some level => exact le_max_left _ _

namespace Engine

variable [MoveGenerator G M V K] {e : Engine (AnyStrategy G K) M V K} {w : World M K}
  {p : Proposal V K}

theorem select_floats (hG : MoveGenerator.Supplies G I Φ)
    (he : e.strategy.Floats I fun constructed =>
      constructed = true ∨ Construction.openVariables w.solution.model = .ok []) :
    Attempt.Ensures (· = (e, w))
      (select : Act (Engine (AnyStrategy G K) M V K) M K (Option (Proposal V K)))
      (fun p? t => (t.1.strategy.Floats I (· = true) ∧ t.2.solution = w.solution) ∧
        Sunk Φ (AnyStrategy.level? (e.strategy, w)) w.solution.model p?)
      (fun t => t.2.solution = w.solution) := by
  refine ensures_select (R := fun p? t => (t.1.strategy.Floats I (· = true) ∧
      t.2.solution = w.solution) ∧ Sunk Φ (AnyStrategy.level? (e.strategy, w)) w.solution.model p?)
    (Attempt.ensures_focus fun t ht => ?_) (fun _ h => h) (fun t p kept h _ => ?_)
    fun _ _ _ h _ => h.1.2
  · subst ht
    exact AnyStrategy.select_floats hG he
  · refine ⟨h.1, ?_⟩
    -- a vetoed proposal is no proposal any more
    split
    · exact h.2
    · exact sunk_none

variable [IsStrictOrderedRing K]

theorem commit_below (hJ : Model.Additive J Φ) (time : K) {s : Solution M K} (hs : s.Below J bound)
    (hp : p.Respects Φ (Under level) s.model) :
    Ensures (· = s) (commit p time : Act (Engine (AnyStrategy G K) M V K) M K Unit)
      (fun _ => Solution.Below J (max bound level)) (Solution.Below J (max bound level)) := by
  obtain ⟨hmodel, total, htotal, hbound⟩ := hs
  obtain ⟨c, m, total', hrun, hm, htotal', hc⟩ := hJ.commit_respects hmodel htotal hp
  refine commit_ensures (Solution.keptBySave_below hJ) ?_ ?_ fun _ h => h
  · rintro _ c' m' rfl hrun'
    cases hrun.symm.trans hrun'
    refine ⟨hm, total', htotal', ?_⟩
    cases c with
    | rejected delta =>
      rw [hc]
      exact hbound.trans (le_max_left _ _)
    | applied delta =>
      obtain ⟨rfl, hdelta | hlevel⟩ := hc
      · exact (add_le_of_nonpos_right hdelta).trans (hbound.trans (le_max_left _ _))
      · exact hlevel.trans (le_max_right _ _)
  · rintro _ failure m' rfl hrun'
    cases hrun.symm.trans hrun'

omit [IsStrictOrderedRing K] in
theorem SaveStep.floats {e' : Engine (AnyStrategy G K) M V K} {s s' : Solution M K}
    (h : SaveStep e s e' s') (he : e.strategy.Floats I C) : e'.strategy.Floats I C := by
  cases h with
  | skipped => exact he
  | saved => exact AnyStrategy.floats_bestSaved he

/-- A pass takes the total value to one that is not above the higher of what it was and the level
that decides. -/
theorem pass_below (hG : MoveGenerator.Supplies G I Φ) (hJ : Model.Additive J Φ) (time : K)
    (he : e.strategy.Floats I fun constructed =>
      constructed = true ∨ Construction.openVariables w.solution.model = .ok [])
    (hw : w.solution.Below J bound) :
    Attempt.Ensures (· = (e, w)) (pass time : Act (Engine (AnyStrategy G K) M V K) M K Unit)
      (fun _ t => t.1.strategy.Floats I (· = true) ∧ t.2.solution.Below J
        ((AnyStrategy.level? (e.strategy, w)).elim bound (max bound)))
      (fun t => t.2.solution.Below J
        ((AnyStrategy.level? (e.strategy, w)).elim bound (max bound))) := by
  have hstays := hw.mono (le_elim_max bound (AnyStrategy.level? (e.strategy, w)))
  unfold pass
  refine Attempt.Ensures.bind ((select_floats hG he).mono (fun _ h => h) (fun _ _ h => h)
    fun _ h => h ▸ hstays) fun p? => ?_
  cases p? with
  | none =>
    rintro t ⟨⟨hfloats, hsolution⟩, -⟩
    rw [← hsolution] at hstays
    exact ⟨hfloats, hstays⟩
  | some p =>
    rintro t ⟨⟨hfloats, hsolution⟩, hsunk⟩
    obtain ⟨level, hlevel, hp⟩ := hsunk p rfl
    rw [hlevel]
    rw [← hsolution] at hw hp
    have hcommit := (commit_leads p time t.1 t.2.solution).and
      ((commit_below (G := G) hJ time hw hp).leads.mono_pre fun _ _ h => h.2)
    have hfloating : Leads (At t.1 t.2.solution)
        (commit p time : Act (Engine (AnyStrategy G K) M V K) M K Unit)
        (fun _ e s => e.strategy.Floats I (· = true) ∧ s.Below J (max bound level))
        (fun _ s => s.Below J (max bound level)) := by
      refine hcommit.mono (fun _ _ h => h) (fun _ _ _ h => ⟨?_, h.2⟩) fun _ _ h => h.2
      cases h.1 with
      | applied _ hsave => exact hsave.floats hfloats
      | rejected _ => exact hfloats
    exact hfloating t ⟨rfl, rfl⟩

/-- The level that decides in a turn, if the turn is a pass and there is a level. -/
def level? (stop : Bool) (e : Engine (AnyStrategy G K) M V K) (w : World M K) : Option K :=
  if stop || e.termination.holds w.solution then none else AnyStrategy.level? (e.strategy, w)

theorem turn_below (hG : MoveGenerator.Supplies G I Φ) (hJ : Model.Additive J Φ) (stop : Bool)
    (time : K) (he : e.strategy.Floats I fun constructed =>
      constructed = true ∨ Construction.openVariables w.solution.model = .ok [])
    (hw : w.solution.Below J bound) :
    Attempt.Ensures (· = (e, w))
      (turn stop time : Act (Engine (AnyStrategy G K) M V K) M K (Option Ending))
      (fun ending? t => match ending? with
        | some _ => t.2.solution.Below J ((level? stop e w).elim bound (max bound))
        | none => t.1.strategy.Floats I (· = true) ∧
          t.2.solution.Below J ((level? stop e w).elim bound (max bound)))
      (fun t => t.2.solution.Below J ((level? stop e w).elim bound (max bound))) := by
  have hstays := hw.mono (le_elim_max bound (level? stop e w))
  unfold turn
  split
  · exact Attempt.ensures_pure fun _ h => h ▸ hstays
  rename_i hstop
  refine Attempt.ensures_get_bind_at ?_
  dsimp only
  split
  · exact Attempt.ensures_pure fun _ h => h ▸ hstays
  · rename_i hgoes
    have hlevel : level? stop e w = AnyStrategy.level? (e.strategy, w) := by
      unfold level?
      rw [Bool.not_eq_true] at hstop hgoes
      rw [hstop, hgoes]
      rfl
    rw [hlevel]
    exact (pass_below hG hJ time he hw).bind fun _ => Attempt.ensures_pure fun _ h => h

omit [IsStrictOrderedRing K] in
/-- The opening leaves the total value as it is, and a strategy that floats afloat. -/
theorem opening_below (hG : MoveGenerator.Supplies G I Φ) (hJ : Model.Additive J Φ)
    (hopen : ∀ m : M, Construction.openVariables (Model.saveBest m) = Construction.openVariables m) :
    Leads (fun e s => e.strategy.Floats I (fun _ => Construction.openVariables s.model = .ok []) ∧
        s.Below J bound)
      (opening : Act (Engine (AnyStrategy G K) M V K) M K Bool)
      (fun _ e s => e.strategy.Floats I (fun _ => Construction.openVariables s.model = .ok []) ∧
        s.Below J bound)
      (fun _ s => s.Below J bound) := by
  refine leads_of_at fun e s ⟨he, hs⟩ => ?_
  let F (e : Engine (AnyStrategy G K) M V K) : Prop :=
    e.strategy.Floats I fun _ => Construction.openVariables s.model = .ok []
  have hinit := leads_onStrategy (V := V) (F := fun _ : Engine (AnyStrategy G K) M V K => True)
    (fun _ _ _ => trivial) (AnyStrategy.init_floats
      (C := fun _ => Construction.openVariables s.model = .ok []) (P := (· = s)) hG fun _ _ h => h)
  have hextensions := initExtensions_leads (M := M) (α := K) (V := V) (F := F)
    (I := (· = s)) fun _ _ h => h
  have hprepared := (opening_leads (E := fun _ _ => True)
    (hinit.mono (fun _ _ h => h) (fun _ _ _ h => h.2) fun _ _ _ => trivial)
    (hextensions.mono_error fun _ _ _ => trivial) (fun _ _ _ _ => trivial)
    fun _ _ _ _ _ _ => trivial).at (t := e) (s := s) ⟨trivial, he, rfl⟩
  have hsolution := (opening_ensures (I := Solution.Below J bound)
    (AnyStrategy.restrained (M := M) (G := G)) (Solution.keptBySave_below hJ)).leads.at
    (t := e) (s := s) hs
  refine (hprepared.and hsolution).mono (fun _ _ h => h) ?_ fun _ _ h => h.2
  rintro _ e' s' ⟨⟨⟨e₁, _, ⟨he₁, rfl⟩, hsave⟩, -⟩, hbelow⟩
  refine ⟨(hsave.floats he₁).mono fun _ h => ?_, hbelow⟩
  rcases hsave.model_eq with hmodel | hmodel
  · rw [hmodel]
    exact h
  · rw [hmodel, hopen]
    exact h

end Engine

/-! ## Searches -/

/-- A worker with a great deluge over generators of a kind, or with a group over such generators in
which the water level decides alone and construction is over or finds nothing to do. -/
def Worker.Floats (I : G → Prop) (model : M) (w : Worker (AnyStrategy G K) M V K) : Prop :=
  w.engine.strategy.Floats I fun constructed =>
    w.stage ≠ .opening ∧ constructed = true ∨ Construction.openVariables model = .ok []

namespace Solver

variable [MoveGenerator G M V K] {s s' : Solver (AnyStrategy G K) M V K} {levels : List K}

/-- The level that decides in the next step of a search. Only a pass has one. -/
def level? (s : Solver (AnyStrategy G K) M V K) : Option K :=
  match s.worker with
  | some ⟨e, .passing _⟩ => e.level? s.stopRequested s.world
  | _ => none

/-- Some steps of a search, and the levels that decide in them. -/
inductive Sails (s : Solver (AnyStrategy G K) M V K) :
    List K → Solver (AnyStrategy G K) M V K → Prop
  | refl : Sails s [] s
  | work {levels : List K} {s' : Solver (AnyStrategy G K) M V K} (h : Sails s levels s') :
    Sails s (levels ++ s'.level?.toList) s'.work
  | stop {levels : List K} {s' : Solver (AnyStrategy G K) M V K} (h : Sails s levels s') :
    Sails s levels s'.stop

/-- The total value never rises above the start and the highest level that has decided so far, and a
step takes it to one that is not above the higher of what it was and the level that decides in it. -/
def StaysUnderWater (s : Solver (AnyStrategy G K) M V K) : Prop :=
  ∀ start, Model.totalValue s.world.solution.model = .ok start →
    ∀ levels s', Sails s levels s' →
      ∃ total, Model.totalValue s'.world.solution.model = .ok total ∧
        total ≤ levels.foldl max start ∧
        ∃ total', Model.totalValue s'.work.world.solution.model = .ok total' ∧
          total' ≤ s'.level?.elim total (max total)

/-- A search under way in which the total value is not above a bound. -/
structure Afloat (I : G → Prop) (J : M → Prop) (bound : K) (s : Solver (AnyStrategy G K) M V K) :
    Prop where
  worker : ∃ w, s.worker = some w
  below : s.world.solution.Below J bound
  floats : s.During
    (fun e t => e.strategy.Floats I fun _ => Construction.openVariables t.model = .ok [])
    (fun e t => e.strategy.Floats I fun constructed =>
      constructed = true ∨ Construction.openVariables t.model = .ok [])
    fun _ _ => True

omit [MoveGenerator G M V K] in
theorem afloat_of_floats {w : Worker (AnyStrategy G K) M V K} (hworker : s.worker = some w)
    (hw : w.Floats I s.world.solution.model) (hbelow : s.world.solution.Below J bound) :
    s.Afloat I J bound := by
  refine ⟨⟨w, hworker⟩, hbelow, fun w' hw' => ?_⟩
  cases hworker.symm.trans hw'
  unfold Worker.Floats at hw
  cases hstage : w.stage with
  | opening =>
    rw [hstage] at hw
    exact hw.mono fun _ h => h.resolve_left fun h => h.1 rfl
  | passing pass => exact hw.mono fun _ h => h.imp_left And.right
  | closed state => trivial
  | ended => trivial

variable [IsStrictOrderedRing K]

/-- A step takes a bound on the total value to the higher of it and the level that decides. -/
theorem Afloat.work (hG : MoveGenerator.Supplies G I Φ) (hJ : Model.Additive J Φ)
    (hopen : ∀ m : M, Construction.openVariables (Model.saveBest m) = Construction.openVariables m)
    (h : s.Afloat I J bound) : s.work.Afloat I J (s.level?.elim bound (max bound)) := by
  obtain ⟨w, hworker⟩ := h.worker
  have hstays := h.below.mono (le_elim_max bound s.level?)
  have hw := h.floats w hworker
  have hwork : During (fun _ _ => False)
      (fun e t => (e.strategy.Floats I fun constructed =>
        constructed = true ∨ Construction.openVariables t.model = .ok []) ∧
          t.Below J (s.level?.elim bound (max bound)))
      (fun _ t => t.Below J (s.level?.elim bound (max bound))) s.work := by
    refine during_work hworker (fun hstage => ?_) (fun pass hstage => ?_) (fun _ _ => hstays)
      fun _ => hstays
    · rw [hstage] at hw
      refine ((Engine.opening_below hG hJ hopen).run (t := (w.engine, s.world))
        ⟨hw, h.below⟩).mono (fun _ h => h) (fun _ _ h => ?_) fun _ h => h.mono (le_elim_max _ _)
      exact ⟨h.1.mono fun _ h => .inr h, h.2.mono (le_elim_max _ _)⟩
    · rw [hstage] at hw
      have hlevel : s.level? = w.engine.level? s.stopRequested s.world := by
        unfold level?
        rw [hworker]
        obtain ⟨e, stage⟩ := w
        cases hstage
        rfl
      rw [hlevel]
      refine (Engine.turn_below hG hJ s.stopRequested (s.clock pass) hw h.below).mono_post
        fun ending? t h => ?_
      cases ending? with
      | some ending => exact h
      | none => exact ⟨h.1.mono fun _ h => .inl h, h.2⟩
  obtain ⟨w', hworker'⟩ := worker_work hworker
  exact ⟨⟨w', hworker'⟩,
    hwork.solution hworker' (fun _ _ h => h.elim) (fun _ _ h => h.2) fun _ _ h => h,
    hwork.mono (fun _ _ h => h.elim) (fun _ _ h => h.1) fun _ _ _ => trivial⟩

/-- The total value stays below the highest of the levels that have decided so far. -/
theorem Afloat.sails (hG : MoveGenerator.Supplies G I Φ) (hJ : Model.Additive J Φ)
    (hopen : ∀ m : M, Construction.openVariables (Model.saveBest m) = Construction.openVariables m)
    (h : s.Afloat I J bound) (hsails : Sails s levels s') :
    s'.Afloat I J (levels.foldl max bound) := by
  -- by induction on the steps, each of which adds the level that decides in it
  induction hsails with
  | refl => exact h
  | @work levels s' _ ih =>
    have hfoldl : (levels ++ s'.level?.toList).foldl max bound =
        s'.level?.elim (levels.foldl max bound) (max (levels.foldl max bound)) := by
      rw [List.foldl_append]
      cases s'.level? <;> rfl
    rw [hfoldl]
    exact ih.work hG hJ hopen
  | stop _ ih => exact ⟨ih.worker, ih.below, ih.floats⟩

theorem staysUnderWater (hG : MoveGenerator.Supplies G I Φ) (hJ : Model.Additive J Φ)
    (hopen : ∀ m : M, Construction.openVariables (Model.saveBest m) = Construction.openVariables m)
    {w : Worker (AnyStrategy G K) M V K} (hworker : s.worker = some w)
    (hw : w.Floats I s.world.solution.model)
    (hstart : ∀ total, Model.totalValue s.world.solution.model = .ok total →
      J s.world.solution.model) : s.StaysUnderWater := by
  intro start htotal levels s' hsails
  have hafloat := (afloat_of_floats hworker hw
    ⟨hstart start htotal, start, htotal, le_refl _⟩).sails hG hJ hopen hsails
  obtain ⟨hmodel, total, htotal, hle⟩ := hafloat.below
  -- for the next step the bound is the total value itself
  have hnext : s'.Afloat I J total :=
    ⟨hafloat.worker, ⟨hmodel, total, htotal, le_refl _⟩, hafloat.floats⟩
  exact ⟨total, htotal, hle, (hnext.work hG hJ hopen).below.2⟩

/-- A search by great deluge, or by a group without a temperature that has nothing to construct any
more, stays under water: with all generators of this library on independent penalties, and on
timetables without clashes with those that do not swap. -/
theorem great_deluge_stays_under_water :
    (∀ (s : Solver (AnyStrategy (Generator Empty K) K) (Penalty K) Nat K)
        (w : Worker (AnyStrategy (Generator Empty K) K) (Penalty K) Nat K),
      s.worker = some w → w.Floats (fun _ => True) s.world.solution.model →
      s.world.solution.model.assigned.length = s.world.solution.model.table.length →
      s.StaysUnderWater) ∧
    ∀ (s : Solver (AnyStrategy (Generator Empty K) K) (Timetable K) (Placement K) K)
        (w : Worker (AnyStrategy (Generator Empty K) K) (Timetable K) (Placement K) K),
      s.worker = some w → w.Floats Generator.Swapless s.world.solution.model →
      s.world.solution.model.assigned.length = s.world.solution.model.events.length →
      s.world.solution.model.hasHardConflicts = .ok false → s.StaysUnderWater := by
  constructor
  · intro s w hworker hw hlength
    exact staysUnderWater (MoveGenerator.Proposes.supplies Generator.proposes_fits)
      (Penalty.additive_filled s.world.solution.model.table) (fun _ => rfl) hworker hw
      fun total htotal => Penalty.filled_of_totalValue hlength htotal
  · intro s w hworker hw hlength hconflicts
    exact staysUnderWater Generator.supplies_swapless
      (Timetable.additive_compatible s.world.solution.model.events) (fun _ => rfl) hworker hw
      fun _ _ => ⟨rfl, hlength, Timetable.clashFree_of_hasHardConflicts hconflicts⟩

/-- A great deluge whose level starts at twice the reference, on two variables with two options
each. -/
def swimmer : Solver (AnyStrategy (Generator Empty ℚ) ℚ) (Penalty ℚ) Nat ℚ :=
  of (.ofSolution (.ofModel ⟨[[0, 3], [0, 1]], [some 1, some 0], none, 0⟩) (.standard 0) none)
    (.of (.basic (.greatDeluge (.of ⟨[.of "change" (.basic (.change false)) 0], .fresh 1, {}, false⟩
      (.of ⟨1 / 2, 2, 1 / 2, none⟩ false false) false))))
    fun _ => 0

/-- The swimmer before the opening of its search. -/
def swimming : Solver (AnyStrategy (Generator Empty ℚ) ℚ) (Penalty ℚ) Nat ℚ :=
  swimmer.start.toOption.getD swimmer

/-- A group without a temperature, on two events with two placements each. -/
def diver : Solver (AnyStrategy (Generator Empty ℚ) ℚ) (Timetable ℚ) (Placement ℚ) ℚ :=
  of (.ofSolution (.ofModel (.pair [⟨0, 0, 1⟩, ⟨1, 0, 5⟩] [⟨2, 0, 1⟩, ⟨3, 0, 5⟩] ⟨1, 0, 5⟩ ⟨3, 0, 5⟩))
    (.standard 0) none)
    (.of (.basic (.group (.of (.of .standard)
      ⟨[.of "lazy_change" (.basic .lazyChange) 0], .fresh 1, {}, false⟩
      (.of ⟨1 / 2, 2, 1 / 2, none⟩ true false) none))))
    fun _ => 0

/-- The diver before the opening of its search. -/
def diving : Solver (AnyStrategy (Generator Empty ℚ) ℚ) (Timetable ℚ) (Placement ℚ) ℚ :=
  diver.start.toOption.getD diver

/-- The opening and two passes, with the levels that decide in these. -/
theorem great_deluge_stays_under_water_swimmer :
    (swimmer.start = .ok swimming ∧ Sails swimming [6, 3] swimming.work.work.work ∧
      ∃ total, Model.totalValue swimming.work.work.work.world.solution.model = .ok total ∧
        total ≤ [6, 3].foldl max 3) ∧
    diver.start = .ok diving ∧ Sails diving [20, 20] diving.work.work.work ∧
      ∃ total, Model.totalValue diving.work.work.work.world.solution.model = .ok total ∧
        total ≤ [20, 20].foldl max 10 := by
  have hswims : Sails swimming [6, 3] swimming.work.work.work := by
    have hlevels : [6, 3] = [] ++ swimming.level?.toList ++ swimming.work.level?.toList ++
      swimming.work.work.level?.toList := by decide +kernel
    rw [hlevels]
    exact .work (.work (.work .refl))
  have hdives : Sails diving [20, 20] diving.work.work.work := by
    have hlevels : [20, 20] = [] ++ diving.level?.toList ++ diving.work.level?.toList ++
      diving.work.work.level?.toList := by decide +kernel
    rw [hlevels]
    exact .work (.work (.work .refl))
  obtain ⟨total, htotal, hle, -⟩ := great_deluge_stays_under_water.1 swimming _ rfl
    (fun _ _ => trivial) rfl 3 (by decide +kernel) _ _ hswims
  obtain ⟨total', htotal', hle', -⟩ := great_deluge_stays_under_water.2 diving _ rfl
    ⟨⟨fun g hg => by cases List.mem_singleton.1 hg; trivial, rfl⟩, .inr (by decide +kernel)⟩ rfl
    (by decide +kernel) 10 (by decide +kernel) _ _ hdives
  exact ⟨⟨rfl, hswims, total, htotal, hle⟩, rfl, hdives, total', htotal', hle'⟩

end Solver

end LocalSearch
