import LocalSearch.Proofs.Selection.Basic
import LocalSearch.Strategy.Construction
/-!
# Selections of construction

* `Construction.Offers`: what construction may offer for a model. It gives a variable that has no
  value one of its domain, with the effect that the model computes.
* `Construction.selects`: construction leaves the solution alone and offers nothing else.
* `Proposal.Supplied`: what any strategy may propose for a model.
-/

namespace LocalSearch

open Act

namespace Construction

variable {M V α : Type} [Scalar α] [Model M V α] {I : Solution M α → Prop}

omit [Scalar α] in
/-- An offer of construction for a model. -/
inductive Offers (model : M) : Proposal V α → Prop
  | fill {v : Nat} {value : V} {values : List V} {delta : α}
    (hopen : Model.assignment model v = .ok none)
    (hvalues : Model.values model v = .ok values) (hvalue : value ∈ values)
    (hdelta : Model.delta model v value = .ok delta) :
    Offers model (.move (.change ⟨v, some value, delta⟩))

omit [Scalar α] in
theorem unassigned_of_mem_openVariables {model : M} {vs : List Nat} {v : Nat}
    (h : openVariables model = .ok vs) (hv : v ∈ vs) : Model.assignment model v = .ok none := by
  obtain ⟨-, hv⟩ := (mem_iff_of_filterM_eq_ok h).1 hv
  obtain ⟨current?, hcurrent, hv⟩ := bind_eq_ok_iff.1 hv
  cases current? with
  | none => exact hcurrent
  | some current => cases hv

/-- The choices with the least score are values with their effects. -/
def Choices (model : M) (v : Nat) (values : List V) (best : Best α) : Prop :=
  ∀ least choices, best = some (least, choices) → ∀ choice ∈ choices, ∃ value,
    values[choice.1]? = some value ∧ Model.delta model v value = .ok choice.2

theorem choices_improveBest {model : M} {v : Nat} {values : List V} {best : Best α} {score : α}
    {choice : Nat × α} (hbest : Choices model v values best) {value : V}
    (hvalue : values[choice.1]? = some value) (hdelta : Model.delta model v value = .ok choice.2) :
    Choices model v values (improveBest best score choice) := by
  have hone : Choices model v values (some (score, [choice])) := by
    intro least choices h c hc
    cases h
    cases List.mem_singleton.1 hc
    exact ⟨value, hvalue, hdelta⟩
  unfold improveBest
  cases best with
  | none =>
    dsimp only
    split
    · exact hone
    · exact hbest
  | some found =>
    obtain ⟨least, choices⟩ := found
    dsimp only
    split
    · exact hone
    split
    · intro least' choices' h c hc
      cases h
      rcases List.mem_append.1 hc with hc | hc
      · exact hbest least choices rfl c hc
      · exact hone score [choice] rfl c hc
    · exact hbest

theorem choices_best {c : Construction α} {model : M} {v : Nat} {values : List V}
    {admitted : Nat → Bool} {best : Best α} (h : c.best model v values admitted = .ok best) :
    Choices model v values best := by
  -- the invariant of the fold: every choice kept so far was evaluated on this model
  refine of_foldlM_eq_ok (P := Choices model v values) ?_ (fun _ _ h => by cases h) h
  rintro best ⟨value, index⟩ best' hmem hbest hstep
  have hvalue : values[index]? = some value := by
    simpa using List.mem_zipIdx_iff_getElem?.1 hmem
  dsimp only at hstep
  split at hstep
  · cases hstep
    exact hbest
  obtain ⟨out, -, hstep⟩ := bind_eq_ok_iff.1 hstep
  obtain ⟨delta, hdelta, hstep⟩ := bind_eq_ok_iff.1 hstep
  cases hstep
  exact choices_improveBest hbest hvalue hdelta

omit [Scalar α] [Model M V α] in
@[simp]
theorem quiet_drawBelow {S : Type} (n : Nat) : Quiet (drawBelow n : Act S M α Nat) :=
  quiet_onWorld fun _ => Attempt.ensures_focus fun _ hw =>
    Attempt.ensures_of (fun _ _ _ _ _ => hw) fun _ _ _ _ _ => hw

/-- Construction leaves the solution alone. -/
theorem selects : Strategy.Selects (Construction α) I (Offers (M := M)) := by
  show Ensures I select _ I
  have hnone {P : Solution M α → Prop} (hP : ∀ s, P s → I s) : Ensures P
      (pure none : Act (Construction α) M α (Option (Proposal V α)))
      (fun p? s => I s ∧ ∀ p, p? = some p → Offers s.model p) I :=
    ensures_pure fun s hs => ⟨hP s hs, fun _ h => by cases h⟩
  unfold select
  refine ensures_solution_bind fun s hs => ?_
  have hI : ∀ t, t = s → I t := fun t ht => ht ▸ hs
  dsimp only
  refine ensures_lift_bind hI fun vs hvs => ?_
  split
  · exact hnone hI
  refine ensures_quiet_bind (by simp) hI fun position => ?_
  refine ensures_lift_bind hI fun v hv => ?_
  refine ensures_lift_bind hI fun values hvalues => ?_
  refine ensures_quiet_bind (by simp) hI fun c => ?_
  refine ensures_lift_bind hI fun best hbest => ?_
  cases best with
  | none => exact hnone hI
  | some found =>
    obtain ⟨score, choices⟩ := found
    refine ensures_quiet_bind (by simp) hI fun position => ?_
    refine ensures_lift_bind hI fun choice hchoice => ?_
    refine ensures_lift_bind hI fun value hvalue => ?_
    refine ensures_quiet_bind (by simp) hI fun _ => ?_
    refine ensures_quiet_bind (by simp) hI fun _ => ?_
    -- the chosen value is fetched anew by its index; it is the one that was evaluated
    have hmem : choice ∈ choices := List.mem_of_getElem? (fetch_eq_ok_iff.1 hchoice)
    obtain ⟨value', hvalue', hdelta⟩ := choices_best hbest score choices rfl choice hmem
    have hsame : value = value' := by
      rw [fetch_eq_ok_iff.1 hvalue] at hvalue'
      exact Option.some.inj hvalue'
    subst hsame
    refine ensures_pure fun t ht => ⟨hI t ht, fun p hp => ?_⟩
    cases hp
    rw [ht]
    exact .fill (unassigned_of_mem_openVariables hvs (List.mem_of_getElem? (fetch_eq_ok_iff.1 hv)))
      hvalues (List.mem_of_getElem? hvalue') hdelta

/-- Construction reports no error. -/
theorem faultsOnly_select :
    Attempt.FaultsOnly (select : Act (Construction α) M α (Option (Proposal V α))) := by
  have hdraw (n : Nat) : Attempt.FaultsOnly (drawBelow n : Act (Construction α) M α Nat) := by
    unfold drawBelow onWorld draw
    exact Attempt.faultsOnly_focus (Attempt.faultsOnly_focus (Attempt.faultsOnly_modifyGet _))
  unfold select
  refine Attempt.faultsOnly_bind (by simp) fun s => ?_
  refine Attempt.faultsOnly_bind (by simp) fun vs => ?_
  refine Attempt.faultsOnly_ite (by simp) ?_
  refine Attempt.faultsOnly_bind (hdraw _) fun position => ?_
  refine Attempt.faultsOnly_bind (by simp) fun v => ?_
  refine Attempt.faultsOnly_bind (by simp) fun values => ?_
  refine Attempt.faultsOnly_bind (by simp) fun c => ?_
  refine Attempt.faultsOnly_bind (by simp) fun best => ?_
  cases best with
  | none => simp
  | some found =>
    refine Attempt.faultsOnly_bind (hdraw _) fun position => ?_
    refine Attempt.faultsOnly_bind (by simp) fun choice => ?_
    refine Attempt.faultsOnly_bind (by simp) fun value => ?_
    refine Attempt.faultsOnly_bind (by simp) fun _ => ?_
    exact Attempt.faultsOnly_bind (by simp) fun _ => by simp

end Construction

/-- A proposal of any strategy: it was made of a candidate or is an offer of construction. -/
def Proposal.Supplied {M V α : Type} [Model M V α] (Φ : M → Candidate V α → Prop) (model : M)
    (p : Proposal V α) : Prop :=
  p.From Φ model ∨ Construction.Offers model p

end LocalSearch
