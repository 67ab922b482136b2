import Mathlib
import LocalSearch.Proofs.Model.Atomic
import LocalSearch.Proofs.Model.Exchange
import LocalSearch.Proofs.Selection.Verdict
/-!
# Commits that add up

In exact arithmetic a committed change moves the total value by the effect that it promised or
measured, and a change that is taken back leaves the total value as it was. On independent penalties
this holds of all candidates of the basic generators. On timetables it holds of those that change one
event; the effect of a swap of placements may differ from the evaluated one.

* `Model.Additive`: models on which certain candidates add up.
* `LazyChange.commit_additive`: lazy changes on a model that serves and whose total value depends on
  the assignment only.
* `Penalty.additive_filled`, `Timetable.additive_compatible`: the two models.
* `Proposal.Respects`: a proposal that keeps to a limit on effects and totals, and
  `Model.Additive.commit_respects`: what committing it leads to.
-/

namespace LocalSearch

open Attempt
open Model.Tables (assigned)

variable {M V K : Type} [Field K] [LinearOrder K] [Scalar.Functions K] [Model M V K]

/-- What the models with `J` have in common: the total value is defined, and committing a candidate
in the relation `Φ` to the model succeeds and adds its effect, unless it is taken back. -/
structure Model.Additive (J : M → Prop) (Φ : M → Candidate V K → Prop) : Prop where
  total {m : M} : J m → ∃ total, Model.totalValue m = .ok total
  info {m : M} : J m → ∃ info, Model.info m = .ok info
  saveBest {m : M} : J m → J (Model.saveBest m)
  total_saveBest {m : M} : J m → Model.totalValue (Model.saveBest m) = Model.totalValue m
  eager {m : M} {mv : Move V K} {total : K} : J m → Φ m (.eager mv) →
    Model.totalValue m = .ok total →
    ∃ m', mv.commit m = .ok () m' ∧ J m' ∧ Model.totalValue m' = .ok (total + mv.delta)
  lazy {m : M} {c : LazyChange V} {total : K} (accept : K → K → Bool) : J m → Φ m (.lazy c) →
    Model.totalValue m = .ok total →
    ∃ delta m', J m' ∧ if accept (total + delta) delta then
        c.commit (fun _ => accept) m = .ok (.applied delta) m' ∧
          Model.totalValue m' = .ok (total + delta)
      else c.commit (fun _ => accept) m = .ok (.rejected delta) m' ∧
        Model.totalValue m' = .ok total

/-! ## Lazy changes -/

/-- A lazy change adds what it measures, or leaves the total value as it was. -/
theorem LazyChange.commit_additive [Model.Tabular M] {J : M → Prop} {D : Nat → V → Prop}
    (hJ : Model.Serves J D)
    (htables : ∀ {m m' : M}, J m → J m' → assigned m' = assigned m →
      Model.totalValue m' = Model.totalValue m)
    {m : M} (hm : J m) (hsound : Model.Sound m) {c : LazyChange V}
    (hv : c.var < (assigned m).length) (hx : D c.var c.value) {total : K}
    (htotal : Model.totalValue m = .ok total) (accept : K → K → Bool) :
    ∃ delta m', J m' ∧ if accept (total + delta) delta then
        c.commit (fun _ => accept) m = .ok (.applied delta) m' ∧
          Model.totalValue m' = .ok (total + delta)
      else c.commit (fun _ => accept) m = .ok (.rejected delta) m' ∧
        Model.totalValue m' = .ok total := by
  obtain ⟨made, before, after, -, hbefore, hafter, hrun⟩ :=
    c.commit_atomic hJ hm hsound hv hx fun _ => accept
  obtain rfl : total = before := Except.ok.inj (htotal.symm.trans hbefore)
  have hkeeps {r : Commit K} {m' : M} (h : c.commit (fun _ => accept) m = .ok r m') : J m' :=
    ((c.commit_returns hJ hv hx fun _ => accept).of_ok ⟨hm, rfl⟩ h).1
  -- the measure is the difference, so the total value before and the measure give the one after
  have hsum : total + (after - total) = after := add_sub_cancel total after
  refine ⟨after - total, ?_⟩
  rw [hsum]
  split at hrun
  · rename_i haccept
    refine ⟨made, hkeeps hrun, ?_⟩
    rw [if_pos haccept]
    exact ⟨hrun, hafter⟩
  · rename_i haccept
    obtain ⟨m', hrun, hbecomes⟩ := hrun
    refine ⟨m', hkeeps hrun, ?_⟩
    rw [if_neg haccept]
    exact ⟨hrun, (htables hm (hkeeps hrun) hbecomes.assigned).trans htotal⟩

/-! ## Independent penalties -/

namespace Penalty

omit [Model M V K]

variable {table : List (List K)} {p p' : Penalty K} {a b optionA optionB : Nat}
  {rowA rowB : List K} {delta beforeA beforeB afterA afterB total : K}

/-- The effect of another option is the difference of the penalties. -/
theorem delta_eq_ok {v now option : Nat} {row : List K} {before after : K}
    (hassigned : p.assigned[v]? = some (some now)) (hrow : p.table[v]? = some row)
    (hbefore : row[now]? = some before) (hafter : row[option]? = some after) :
    Model.delta p v option = .ok (after - before) := by
  have hcurrent : p.current v = .ok before :=
    (current_eq hassigned hrow).trans (fetch_eq_ok_iff.2 hbefore)
  exact bind_eq_ok_iff.2 ⟨row, fetch_eq_ok_iff.2 hrow, bind_eq_ok_iff.2
    ⟨after, fetch_eq_ok_iff.2 hafter, bind_eq_ok_iff.2 ⟨before, hcurrent, rfl⟩⟩⟩

/-- An evaluated exchange has the same outcome as giving one variable after the other its new
option, so their effects add up to that of the exchange. -/
theorem Exchange.commit_adds
    (h : p.Exchange a b delta optionA optionB rowA rowB beforeA beforeB afterA afterB)
    (hab : a ≠ b) (hp : Filled table p) (htotal : p.totalValue = .ok total) :
    ∃ p', (SwapMove.mk a b delta).commit p = .ok () p' ∧ Filled table p' ∧
      p'.totalValue = .ok (total + delta) := by
  obtain ⟨hlta, -⟩ := List.getElem?_eq_some_iff.1 h.assignedA
  obtain ⟨hltb, -⟩ := List.getElem?_eq_some_iff.1 h.assignedB
  obtain ⟨hhasA, hhasB⟩ := hp.table_eq ▸ h.has
  let p₁ : Penalty K :=
    { p with assigned := p.assigned.set a (some optionB), assignments := p.assignments + 1 }
  let p₂ : Penalty K :=
    { p₁ with assigned := p₁.assigned.set b (some optionA), assignments := p₁.assignments + 1 }
  have hp₁ : Filled table p₁ := hp.set fun _ ho => by cases ho; exact hhasA
  have hp₂ : Filled table p₂ := hp₁.set fun _ ho => by cases ho; exact hhasB
  have hltb₁ : b < p₁.assigned.length := by simpa [p₁] using hltb
  have hassign₁ : Model.assign p a optionB = .ok p₁ := assign_eq hlta
  have hassign₂ : Model.assign p₁ b optionA = .ok p₂ := assign_eq hltb₁
  have hassignedB : p₁.assigned[b]? = some (some optionB) :=
    (List.getElem?_set_ne hab).trans h.assignedB
  have htotal₁ : p₁.totalValue = .ok (total + (afterA - beforeA)) :=
    (exact_filled table).adds hp (delta_eq_ok h.assignedA h.rowA_eq h.beforeA_eq h.afterA_eq) htotal
      hassign₁
  have htotal₂ : p₂.totalValue = .ok (total + (afterA - beforeA) + (afterB - beforeB)) :=
    (exact_filled table).adds hp₁ (delta_eq_ok hassignedB h.rowB_eq h.beforeB_eq h.afterB_eq)
      htotal₁ hassign₂
  refine ⟨p₂, ?_, hp₂, ?_⟩
  · -- taking both options away first makes no difference
    have hsteps : p₂.assigned =
        (((p.assigned.set a none).set b none).set a (some optionB)).set b (some optionA) := by
      show (p.assigned.set a (some optionB)).set b (some optionA) = _
      rw [List.set_comm none (some optionB) hab.symm]
      simp
    refine SwapMove.commit_of_steps (fetch_eq_ok_iff.2 h.assignedA) (fetch_eq_ok_iff.2 h.assignedB)
      (unassign_eq hlta) (unassign_eq (by simpa using hltb)) (assign_eq (by simpa using hlta)) ?_
    rw [assign_eq (by simpa using hltb), ← hsteps]
  · have hdelta : delta = afterA + afterB - beforeA - beforeB := h.delta_eq
    rw [htotal₂, hdelta]
    congr 1
    ring

theorem exists_info (hp : Filled table p) : ∃ info, Model.info p = .ok info := by
  obtain ⟨total, htotal⟩ := hp.exists_totalValue
  exact ⟨_, bind_eq_ok_iff.2 ⟨total, htotal, rfl⟩⟩

/-- The total value depends on the table and the assignment. -/
theorem totalValue_congr (htable : p'.table = p.table) (hassigned : p'.assigned = p.assigned) :
    p'.totalValue = p.totalValue := by
  obtain ⟨table, assigned, best, count⟩ := p'
  cases htable
  cases hassigned
  rfl

/-- All candidates of the basic generators add up on independent penalties. -/
theorem additive_filled (table : List (List K)) :
    Model.Additive (M := Penalty K) (Filled table) fun p c => c.Fits p where
  total h := h.exists_totalValue
  info := exists_info
  saveBest h := ⟨h.table_eq, h.length_assigned, h.has⟩
  total_saveBest _ := rfl
  eager {p mv total} hp hfits htotal := by
    cases hfits with
    | @change v current option values delta hassigned hvalues hoption hfree hdelta =>
      have hlt : v < p.assigned.length :=
        (List.getElem?_eq_some_iff.1 (fetch_eq_ok_iff.1 hassigned)).1
      have hassign : Model.assign p v option = .ok _ := assign_eq hlt
      refine ⟨_, ChangeMove.commit_of_assign (m := ⟨v, some option, delta⟩) rfl hassign, ?_, ?_⟩
      · exact hp.set fun _ ho => by cases ho; exact hp.table_eq ▸ has_of_mem_values hvalues hoption
      · exact (exact_filled table).adds hp hdelta htotal hassign
    | @swap s hswap =>
      obtain ⟨-, -, hab, -, -, hdelta⟩ := SwapMove.of?_eq_some hswap
      obtain ⟨_, _, _, _, _, _, _, _, hexchange⟩ := exchange_of_swapDelta hdelta
      exact hexchange.commit_adds hab hp htotal
  lazy {p c total} accept hp hfits htotal := by
    cases hfits with
    | lazy hassigned hvalues hoption hfree =>
      have hlt := (List.getElem?_eq_some_iff.1 (fetch_eq_ok_iff.1 hassigned)).1
      exact LazyChange.commit_additive (serves_filled table)
        (fun h h' => totalValue_congr (h'.table_eq.trans h.table_eq.symm)) hp
        (p.clashFree p.assigned) hlt (hp.table_eq ▸ has_of_mem_values hvalues hoption) htotal accept

end Penalty

/-! ## Timetables -/

namespace Timetable

omit [Model M V K]

/-- A timetable of the events in which nothing clashes. -/
structure Compatible {α : Type} (events : List (Course α)) (t : Timetable α) : Prop where
  events_eq : t.events = events
  length_assigned : t.assigned.length = events.length
  sound : Model.Sound t

variable {events : List (Course K)} {t t' : Timetable K}

theorem Compatible.assign {v : Nat} {p : Placement K} (h : Compatible events t)
    (hassign : Model.assign t v p = .ok t') : Compatible events t' where
  events_eq := (invariant_events events).assign h.events_eq hassign
  length_assigned := (Model.length_of_assign hassign).trans h.length_assigned
  sound := Model.invariant_sound.assign h.sound hassign

theorem Compatible.unassign {v : Nat} (h : Compatible events t)
    (hunassign : Model.unassign t v = .ok t') : Compatible events t' where
  events_eq := (invariant_events events).unassign h.events_eq hunassign
  length_assigned := (Model.length_of_unassign hunassign).trans h.length_assigned
  sound := Model.invariant_sound.unassign h.sound hunassign

omit [Field K] [LinearOrder K] [Scalar.Functions K] in
theorem Compatible.sized (h : Compatible events t) : t.Sized := by
  show t.assigned.length = t.events.length
  rw [h.length_assigned, h.events_eq]

/-- No operation fails, and none makes a clash. -/
theorem serves_compatible (events : List (Course K)) :
    Model.Serves (Compatible events) fun _ _ => True where
  assign h hv hx := by
    obtain ⟨t', hassign, -⟩ := serves_sized.assign h.sized hv hx
    exact ⟨t', hassign, h.assign hassign⟩
  unassign h hv := by
    obtain ⟨t', hunassign, -⟩ := serves_sized.unassign h.sized hv
    exact ⟨t', hunassign, h.unassign hunassign⟩
  total h := serves_sized.total h.sized
  admits _ _ := trivial

/-- The total value depends on the events and the assignment. -/
theorem totalValue_congr (hevents : t'.events = t.events) (hassigned : t'.assigned = t.assigned) :
    Model.totalValue t' = Model.totalValue t := by
  obtain ⟨events, assigned, best⟩ := t'
  cases hevents
  cases hassigned
  rfl

/-- The candidates that change one event add up on timetables. -/
theorem additive_compatible (events : List (Course K)) :
    Model.Additive (M := Timetable K) (Compatible events) fun t c => c.Fits t ∧ c.Single where
  total h := serves_sized.total h.sized
  info _ := ⟨_, rfl⟩
  saveBest h := ⟨h.events_eq, h.length_assigned, h.sound⟩
  total_saveBest _ := rfl
  eager {t mv total} ht hfits htotal := by
    obtain ⟨hfits, hsingle⟩ := hfits
    cases hfits with
    | @change v current p values delta hassigned hvalues hp hfree hdelta =>
      have hlt := (List.getElem?_eq_some_iff.1 (fetch_eq_ok_iff.1 hassigned)).1
      obtain ⟨t', hassign, ht'⟩ := (serves_compatible events).assign (x := p) ht hlt trivial
      exact ⟨t', ChangeMove.commit_of_assign (m := ⟨v, some p, delta⟩) rfl hassign, ht',
        exact_sized.adds ht.sized hdelta htotal hassign⟩
    | swap hswap => exact hsingle.elim
  lazy {t c total} accept ht hfits htotal := by
    obtain ⟨hfits, -⟩ := hfits
    cases hfits with
    | lazy hassigned hvalues hp hfree =>
      have hlt := (List.getElem?_eq_some_iff.1 (fetch_eq_ok_iff.1 hassigned)).1
      exact LazyChange.commit_additive (serves_compatible events)
        (fun h h' => totalValue_congr (h'.events_eq.trans h.events_eq.symm)) ht ht.sound hlt
        trivial htotal accept

end Timetable

/-! ## Proposals -/

/-- Whatever the proposal changes, the total value after it and the effect stand in the relation
`R`. -/
def Proposal.Heeds (R : K → K → Prop) (total : K) : Proposal V K → Prop
  | .move m => R (total + m.delta) m.delta
  | .lazy _ criterion => ∀ after delta, criterion.accepts after delta = true → R after delta

/-- The proposal is made of a candidate in the relation `Φ` to the model, and heeds the relation
`R`. -/
def Proposal.Respects (Φ : M → Candidate V K → Prop) (R : K → K → Prop) (model : M)
    (p : Proposal V K) : Prop :=
  p.From Φ model ∧ ∀ total, Model.totalValue model = .ok total → p.Heeds R total

variable {J : M → Prop} {Φ : M → Candidate V K → Prop} {R : K → K → Prop} {m : M}
  {p : Proposal V K} {total : K}

/-- Committing a proposal that respects a relation leaves the total value as it was or makes a
change that stands in the relation. -/
theorem Model.Additive.commit_respects (hJ : Model.Additive J Φ) (hm : J m)
    (htotal : Model.totalValue m = .ok total) (hp : p.Respects Φ R m) :
    ∃ c m' total', p.commit m = .ok c m' ∧ J m' ∧ Model.totalValue m' = .ok total' ∧
      match c with
      | .applied delta => total' = total + delta ∧ R total' delta
      | .rejected _ => total' = total := by
  have hheeds := hp.2 total htotal
  cases p with
  | move mv =>
    obtain ⟨m', hrun, hm', htotal'⟩ := hJ.eager hm hp.1 htotal
    refine ⟨.applied mv.delta, m', total + mv.delta, ?_, hm', htotal', rfl, hheeds⟩
    exact (Attempt.bind_of_ok hrun)
  | lazy c criterion =>
    obtain ⟨delta, m', hm', hrun⟩ := hJ.lazy criterion.accepts hm hp.1 htotal
    split at hrun
    · rename_i haccept
      exact ⟨.applied delta, m', total + delta, hrun.1, hm', hrun.2, rfl, hheeds _ _ haccept⟩
    · exact ⟨.rejected delta, m', total, hrun.1, hm', hrun.2, rfl⟩

end LocalSearch
