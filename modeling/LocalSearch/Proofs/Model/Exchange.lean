import Mathlib
import LocalSearch.Proofs.Attempt
import LocalSearch.Proofs.Candidates
import LocalSearch.Proofs.Exact
import LocalSearch.Proofs.Model.Tabular
/-!
# Swaps of placements

A swap is evaluated with the placements that either domain has in the slot of the other event. It is
committed by exchanging the placements themselves, with the penalties of the domains they came from.

* `Timetable.totalOf_set`: the total value after an event has moved within its period.
* `Timetable.commit_of_free`: what committing a swap does if nothing is in its way, and
  `Timetable.Exchange.commit_eq`: that nothing is in the way of an evaluated one.
* `Timetable.swap_iff`: when the effect of a swap is the evaluated one and both events hold
  placements of their own domains.
-/

namespace LocalSearch

/-- Committing a swap takes both values away and then gives each variable the value of the other. -/
theorem SwapMove.commit_of_steps {M V α : Type} [Model M V α] {m m₁ m₂ m₃ m₄ : M} {s : SwapMove α}
    {x y : V} (hx : Model.assignment m s.first = .ok (some x))
    (hy : Model.assignment m s.second = .ok (some y)) (h₁ : Model.unassign m s.first = .ok m₁)
    (h₂ : Model.unassign m₁ s.second = .ok m₂) (h₃ : Model.assign m₂ s.first y = .ok m₃)
    (h₄ : Model.assign m₃ s.second x = .ok m₄) : s.commit m = .ok () m₄ := by
  unfold commit
  show (liftM (Model.assignment m s.first) >>= _ : Attempt M Unit) m = _
  refine (Attempt.lift_bind_of_ok hx).trans ((Attempt.lift_bind_of_ok hy).trans ?_)
  refine (Attempt.bind_of_ok (Attempt.update_of_ok h₁)).trans ?_
  refine (Attempt.bind_of_ok (Attempt.update_of_ok h₂)).trans ?_
  refine (Attempt.bind_of_ok (Model.put_of_ok h₃)).trans ?_
  exact Model.put_of_ok h₄

namespace Timetable

variable {α : Type} {t : Timetable α}

/-! ## Placing an event that is in nobody's way -/

theorem place_of_free {placed : Table (Placement α)} {v : Nat} {p : Placement α} {e : Course α}
    (he : t.events[v]? = some e) (hlt : v < placed.length)
    (hfree : ∀ i q, i ≠ v → placed[i]? = some (some q) → ¬ t.Clashes v p i q) :
    t.place placed v p = .ok (placed.set v (some p)) := by
  obtain ⟨out, hout⟩ := exists_conflictsIn p placed he
  have hnone : out = [] := by
    refine List.eq_nil_iff_forall_not_mem.2 fun i hi => ?_
    obtain ⟨hi, q, hq, hclash⟩ := (mem_conflictsIn hout i).1 hi
    exact hfree i q hi hq hclash
  subst hnone
  exact bind_eq_ok_iff.2 ⟨[], hout, store_eq_ok_iff.2 ⟨hlt, rfl⟩⟩

/-! ## The total value -/

/-- What the other events see of a placed event: its curriculum and its period. -/
def seen (x : Course α × Option (Placement α)) : Nat × Option Nat :=
  (x.1.curriculum, x.2.map Placement.period)

/-- Whether an event of a curriculum in a period has what is seen of another one beside it. -/
def isBeside (curriculum period : Nat) : Nat × Option Nat → Bool
  | (_, none) => false
  | (curriculum', some period') =>
    curriculum == curriculum' && (period == period' + 1 || period' == period + 1)

theorem adjacentPairs_cons_some (e : Course α) (p : Placement α)
    (rest : List (Course α × Option (Placement α))) :
    adjacentPairs ((e, some p) :: rest) =
      (rest.map seen).countP (isBeside e.curriculum p.period) + adjacentPairs rest := by
  rw [adjacentPairs, List.countP_map, List.countP_eq_length_filter]
  congr 2
  refine List.filter_congr fun x _ => ?_
  obtain ⟨f, q?⟩ := x
  cases q? with
  | none => rfl
  | some q => rfl

theorem adjacentPairs_congr {l l' : List (Course α × Option (Placement α))}
    (h : l.map seen = l'.map seen) : adjacentPairs l = adjacentPairs l' := by
  -- by induction on the events; each pair is counted at its first event
  induction l generalizing l' with
  | nil => rw [List.map_eq_nil_iff.1 h.symm]
  | cons x rest ih =>
    cases l' with
    | nil => cases h
    | cons x' rest' =>
      obtain ⟨hx, hrest⟩ := List.cons.inj h
      obtain ⟨e, p?⟩ := x
      obtain ⟨e', p?'⟩ := x'
      obtain ⟨hcurriculum, hperiod⟩ := Prod.mk.inj hx
      cases p? with
      | none =>
        cases p?' with
        | none =>
          show adjacentPairs rest = adjacentPairs rest'
          exact ih hrest
        | some p' => cases hperiod
      | some p =>
        cases p?' with
        | none => cases hperiod
        | some p' =>
          have hcurriculum : e.curriculum = e'.curriculum := hcurriculum
          rw [adjacentPairs_cons_some, adjacentPairs_cons_some, ih hrest, hrest, hcurriculum,
            Option.some.inj hperiod]

section

variable {K : Type} [Field K] [LinearOrder K] [Scalar.Functions K] {t : Timetable K}

/-- What an event costs by where it is. -/
def cost (placed : Option (Placement K)) : K :=
  placed.elim 0 Placement.penalty

theorem preferences_eq (placed : Table (Placement K)) :
    preferences placed = (placed.map cost).sum := by
  unfold preferences
  rw [Scalar.sum_eq]
  induction placed with
  | nil => rfl
  | cons p? rest ih =>
    cases p? with
    | none => simpa [cost] using ih
    | some p => simpa [cost] using ih

/-- Within its period an event changes the total value by its penalty only. -/
theorem totalOf_set {placed : Table (Placement K)} {v : Nat} {p p' : Placement K}
    (hlt : v < placed.length) (hperiod : p.period = p'.period) :
    t.totalOf (placed.set v (some p)) =
      t.totalOf (placed.set v (some p')) + (p.penalty - p'.penalty) := by
  -- the neighbours see the same periods, so only the sum of the penalties changes
  have hadjacent : adjacentPairs (t.events.zip (placed.set v (some p))) =
      adjacentPairs (t.events.zip (placed.set v (some p'))) := by
    refine adjacentPairs_congr ?_
    have hseen (l : Table (Placement K)) : (t.events.zip l).map seen =
        (t.events.map Course.curriculum).zip (l.map (Option.map Placement.period)) :=
      List.zip_map.symm
    rw [hseen, hseen, List.map_set, List.map_set, Option.map_some, Option.map_some, hperiod]
  unfold totalOf
  rw [hadjacent, preferences_eq, preferences_eq, List.map_set, List.map_set, List.sum_set',
    List.sum_set', dif_pos (by simpa using hlt), dif_pos (by simpa using hlt)]
  simp only [cost, Option.elim_some]
  abel

end

/-! ## Evaluated swaps -/

theorem set_none_set_none {placed : Table (Placement α)} {a b : Nat} {p q : Placement α}
    (hab : a ≠ b) :
    (((placed.set a none).set b none).set a (some q)).set b (some p) =
      (placed.set a (some q)).set b (some p) := by
  rw [List.set_comm none (some q) hab.symm]
  simp

/-- Committing a swap exchanges two placements and displaces nothing, if neither event clashes with
the other one or with a third one at its new place. -/
theorem commit_of_free [Scalar α] {a b : Nat} {delta : α} {p q : Placement α} {e f : Course α}
    (hab : a ≠ b) (hplacedA : t.assigned[a]? = some (some p))
    (hplacedB : t.assigned[b]? = some (some q)) (heventA : t.events[a]? = some e)
    (heventB : t.events[b]? = some f) (hpair : ¬ t.Clashes a q b p)
    (hothers : ∀ i r, i ≠ a → i ≠ b → t.assigned[i]? = some (some r) →
      ¬ t.Clashes a q i r ∧ ¬ t.Clashes b p i r) :
    (SwapMove.mk a b delta).commit t =
      .ok () { t with assigned := (t.assigned.set a (some q)).set b (some p) } := by
  obtain ⟨hlta, -⟩ := List.getElem?_eq_some_iff.1 hplacedA
  obtain ⟨hltb, -⟩ := List.getElem?_eq_some_iff.1 hplacedB
  -- with both events out of the timetable nothing is in the way of the first one
  have hfirst : t.place ((t.assigned.set a none).set b none) a q =
      .ok (((t.assigned.set a none).set b none).set a (some q)) := by
    refine place_of_free heventA (by simpa using hlta) fun i r hi hr => ?_
    obtain ⟨hib, hr⟩ := Table.of_getElem?_set_none hr
    exact (hothers i r hi hib (Table.of_getElem?_set_none hr).2).1
  have hsecond : t.place (((t.assigned.set a none).set b none).set a (some q)) b p =
      .ok ((((t.assigned.set a none).set b none).set a (some q)).set b (some p)) := by
    refine place_of_free heventB (by simpa using hltb) fun i r hi hr => ?_
    -- the first event has moved to where the second one was
    by_cases hia : i = a
    · subst hia
      rw [Table.eq_of_getElem?_set_self hr]
      exact fun hclash => hpair (clashes_comm hclash)
    · rw [List.getElem?_set_ne fun h => hia h.symm] at hr
      exact (hothers i r hia hi
        (Table.of_getElem?_set_none (Table.of_getElem?_set_none hr).2).2).2
  rw [← set_none_set_none hab]
  refine SwapMove.commit_of_steps (fetch_eq_ok_iff.2 hplacedA) (fetch_eq_ok_iff.2 hplacedB)
    (bind_eq_ok_iff.2 ⟨_, store_eq_ok_iff.2 ⟨hlta, rfl⟩, rfl⟩)
    (bind_eq_ok_iff.2 ⟨_, store_eq_ok_iff.2 ⟨by simpa using hltb, rfl⟩, rfl⟩)
    (bind_eq_ok_iff.2 ⟨_, hfirst, rfl⟩) (bind_eq_ok_iff.2 ⟨_, hsecond, rfl⟩)

/-- Committing an evaluated swap exchanges the placements and displaces nothing. -/
theorem Exchange.commit_eq [Scalar α] {a b : Nat} {delta : α} {p q p' q' : Placement α}
    {e f : Course α} (h : t.Exchange a b delta p q p' q' e f) (hab : a ≠ b) :
    (SwapMove.mk a b delta).commit t =
      .ok () { t with assigned := (t.assigned.set a (some q)).set b (some p) } :=
  commit_of_free hab h.placedA h.placedB h.eventA h.eventB (h.not_clashes hab) h.not_clashes_other

/-- An event is placed where its own domain has it, with the penalty that it has there. -/
def HoldsOwn (t : Timetable α) (v : Nat) : Prop :=
  ∃ e p, t.events[v]? = some e ∧ t.assigned[v]? = some (some p) ∧ p ∈ e.domain

/-- The placements of two events are in the domain of the other one, and the penalties by which the
exchange is evaluated, which are those of the first placements in the slots, have the same sum as
the penalties of the placements. -/
def Exchangeable [Add α] (t : Timetable α) (a b : Nat) : Prop :=
  ∃ e f p q p' q', t.events[a]? = some e ∧ t.events[b]? = some f ∧
    t.assigned[a]? = some (some p) ∧ t.assigned[b]? = some (some q) ∧
    e.domain.find? (·.sameSlot q) = some q' ∧ f.domain.find? (·.sameSlot p) = some p' ∧
    q ∈ e.domain ∧ p ∈ f.domain ∧ q'.penalty + p'.penalty = q.penalty + p.penalty

section

variable {K : Type} [Field K] [LinearOrder K] [Scalar.Functions K] {t : Timetable K} {a b : Nat}
  {s : SwapMove K}

/-- The effect of a swap differs from the evaluated one by how much the penalties of the placements
differ from those in the domains. -/
theorem Exchange.total_eq {delta : K} {p q p' q' : Placement K} {e f : Course K}
    (h : t.Exchange a b delta p q p' q' e f) (hab : a ≠ b) :
    t.totalOf ((t.assigned.set a (some q)).set b (some p)) = t.totalOf t.assigned + delta +
      ((q.penalty + p.penalty) - (q'.penalty + p'.penalty)) := by
  obtain ⟨hlta, -⟩ := List.getElem?_eq_some_iff.1 h.placedA
  obtain ⟨hltb, -⟩ := List.getElem?_eq_some_iff.1 h.placedB
  have hperiodA : q.period = q'.period := (Placement.sameSlot_iff.1 h.sameSlotA).1.symm
  have hperiodB : p.period = p'.period := (Placement.sameSlot_iff.1 h.sameSlotB).1.symm
  -- one event after the other is set from the placement it gets to the one it was evaluated with
  calc t.totalOf ((t.assigned.set a (some q)).set b (some p))
    _ = t.totalOf ((t.assigned.set a (some q)).set b (some p')) + (p.penalty - p'.penalty) :=
      totalOf_set (by simpa using hltb) hperiodB
    _ = t.totalOf ((t.assigned.set b (some p')).set a (some q)) + (p.penalty - p'.penalty) := by
      rw [List.set_comm _ _ hab]
    _ = t.totalOf ((t.assigned.set b (some p')).set a (some q')) + (q.penalty - q'.penalty) +
          (p.penalty - p'.penalty) := by
      rw [totalOf_set (by simpa using hlta) hperiodA]
    _ = t.totalOf t.assigned + delta + (q.penalty - q'.penalty) + (p.penalty - p'.penalty) := by
      rw [h.delta_eq, set_none_set_none hab, List.set_comm _ _ hab]
      abel
    _ = _ := by abel

/-- The effect of a swap is the evaluated one, and both events hold placements of their own domains
afterwards, exactly if the events are exchangeable. -/
theorem swap_iff (hs : SwapMove.of? t a b = .ok (some s)) :
    (∃ t' : Timetable K, s.commit t = .ok () t' ∧
      t'.totalOf t'.assigned = t.totalOf t.assigned + s.delta ∧ t'.HoldsOwn a ∧ t'.HoldsOwn b) ↔
    t.Exchangeable a b := by
  obtain ⟨rfl, rfl, hab, -, -, hdelta⟩ := SwapMove.of?_eq_some hs
  obtain ⟨p, q, p', q', e, f, h⟩ := exchange_of_swapDelta hdelta
  obtain ⟨hlta, -⟩ := List.getElem?_eq_some_iff.1 h.placedA
  obtain ⟨hltb, -⟩ := List.getElem?_eq_some_iff.1 h.placedB
  let t' : Timetable K :=
    { t with assigned := (t.assigned.set s.first (some q)).set s.second (some p) }
  have hcommit : s.commit t = .ok () t' := h.commit_eq hab
  have hplacedA : t'.assigned[s.first]? = some (some q) := by
    show ((t.assigned.set s.first (some q)).set s.second (some p))[s.first]? = _
    rw [List.getElem?_set_ne hab.symm, List.getElem?_set_self hlta]
  have hplacedB : t'.assigned[s.second]? = some (some p) :=
    List.getElem?_set_self (by simpa using hltb)
  have htotal : t'.totalOf t'.assigned = t.totalOf t.assigned + s.delta ↔
      q'.penalty + p'.penalty = q.penalty + p.penalty := by
    rw [show t'.totalOf t'.assigned = _ from h.total_eq hab, add_eq_left, sub_eq_zero, eq_comm]
  constructor
  · rintro ⟨_, hrun, heffect, ⟨e₁, q₁, he₁, hq₁, hmemA⟩, f₁, p₁, hf₁, hp₁, hmemB⟩
    cases hcommit.symm.trans hrun
    cases h.eventA.symm.trans he₁
    cases h.eventB.symm.trans hf₁
    cases hplacedA.symm.trans hq₁
    cases hplacedB.symm.trans hp₁
    exact ⟨e, f, p, q, p', q', h.eventA, h.eventB, h.placedA, h.placedB, h.foundA, h.foundB, hmemA,
      hmemB, htotal.1 heffect⟩
  · rintro ⟨e₁, f₁, p₁, q₁, p₁', q₁', he₁, hf₁, hp₁, hq₁, hfoundA, hfoundB, hmemA, hmemB, hsum⟩
    cases h.eventA.symm.trans he₁
    cases h.eventB.symm.trans hf₁
    cases h.placedA.symm.trans hp₁
    cases h.placedB.symm.trans hq₁
    cases h.foundA.symm.trans hfoundA
    cases h.foundB.symm.trans hfoundB
    exact ⟨t', hcommit, htotal.2 hsum, ⟨e, q, h.eventA, hplacedA, hmemA⟩,
      f, p, h.eventB, hplacedB, hmemB⟩

end

deriving instance DecidableEq for Placement, SwapMove

/-- Two events whose domains have the same two slots. -/
def pair (first second : List (Placement ℚ)) (p q : Placement ℚ) : Timetable ℚ :=
  ⟨[⟨"A", 0, first⟩, ⟨"B", 1, second⟩], [some p, some q], none⟩

/-- With the same penalties in both domains the events are exchangeable. -/
theorem swap_pair :
    let t := pair [⟨0, 0, 1⟩, ⟨1, 0, 5⟩] [⟨0, 0, 1⟩, ⟨1, 0, 5⟩] ⟨0, 0, 1⟩ ⟨1, 0, 5⟩
    SwapMove.of? t 0 1 = .ok (some ⟨0, 1, 0⟩) ∧
    ∃ t' : Timetable ℚ, (SwapMove.mk 0 1 (0 : ℚ)).commit t = .ok () t' ∧
      t'.totalOf t'.assigned = t.totalOf t.assigned + 0 ∧ t'.HoldsOwn 0 ∧ t'.HoldsOwn 1 := by
  intro t
  have hs : SwapMove.of? t 0 1 = .ok (some ⟨0, 1, 0⟩) := by decide +kernel
  refine ⟨hs, (swap_iff hs).2 ⟨⟨"A", 0, _⟩, ⟨"B", 1, _⟩, ⟨0, 0, 1⟩, ⟨1, 0, 5⟩, ⟨0, 0, 1⟩,
    ⟨1, 0, 5⟩, rfl, rfl, rfl, rfl, ?_, ?_, ?_, ?_, ?_⟩⟩
  all_goals decide +kernel

/-- With other penalties in the domains a swap does not have the evaluated effect, and the events
are left with placements that their own domains do not have, although nothing clashed and every
event held a placement of its own domain before. -/
theorem swap_crossed :
    let t := pair [⟨0, 0, 0⟩, ⟨1, 0, 5⟩] [⟨0, 0, 7⟩, ⟨1, 0, 0⟩] ⟨0, 0, 0⟩ ⟨1, 0, 0⟩
    t.hasHardConflicts = .ok false ∧ t.HoldsOwn 0 ∧ t.HoldsOwn 1 ∧
    SwapMove.of? t 0 1 = .ok (some ⟨0, 1, 12⟩) ∧
    ∃ t' : Timetable ℚ, (SwapMove.mk 0 1 (12 : ℚ)).commit t = .ok () t' ∧
      t'.totalOf t'.assigned ≠ t.totalOf t.assigned + 12 ∧ ¬ t'.HoldsOwn 0 ∧ ¬ t'.HoldsOwn 1 := by
  intro t
  refine ⟨by decide +kernel, ⟨_, _, rfl, rfl, by decide +kernel⟩,
    ⟨_, _, rfl, rfl, by decide +kernel⟩, by decide +kernel,
    pair [⟨0, 0, 0⟩, ⟨1, 0, 5⟩] [⟨0, 0, 7⟩, ⟨1, 0, 0⟩] ⟨1, 0, 0⟩ ⟨0, 0, 0⟩, rfl,
    by decide +kernel, ?_, ?_⟩
  · rintro ⟨e, p, he, hp, hmem⟩
    cases he
    cases hp
    revert hmem
    decide +kernel
  · rintro ⟨e, p, he, hp, hmem⟩
    cases he
    cases hp
    revert hmem
    decide +kernel

end Timetable

end LocalSearch
