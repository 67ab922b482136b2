import LocalSearch.Proofs.Model.Exchange
import LocalSearch.Proofs.Model.Feasible
/-!
# Swaps are transpositions

A swap is evaluated with the placements that the two domains have, but it is the placements
themselves that are exchanged, by taking both events out and putting one in after the other.

* `Timetable.Transposed`: a timetable with the placements of two events exchanged.
* `Timetable.Exchange.commit_transposes`: an evaluated swap makes it, and
  `Timetable.Transposed.commit_back`: without clashes the same swap takes it back.
* `Timetable.swap_transposes`: what a swap does to a timetable that passes the program's test.
-/

namespace LocalSearch.Timetable

variable {α : Type} {t t' : Timetable α} {a b : Nat} {p q : Placement α}

/-- The second timetable is the first one with the placements of two events exchanged. -/
structure Transposed (t : Timetable α) (a b : Nat) (p q : Placement α) (t' : Timetable α) :
    Prop where
  ne : a ≠ b
  placedA : t.assigned[a]? = some (some p)
  placedB : t.assigned[b]? = some (some q)
  result : t' = { t with assigned := (t.assigned.set a (some q)).set b (some p) }

namespace Transposed

theorem first (h : t.Transposed a b p q t') : t'.assigned[a]? = some (some q) := by
  obtain ⟨hlt, -⟩ := List.getElem?_eq_some_iff.1 h.placedA
  rw [h.result]
  show ((t.assigned.set a (some q)).set b (some p))[a]? = _
  rw [List.getElem?_set_ne h.ne.symm, List.getElem?_set_self hlt]

theorem second (h : t.Transposed a b p q t') : t'.assigned[b]? = some (some p) := by
  obtain ⟨hlt, -⟩ := List.getElem?_eq_some_iff.1 h.placedB
  rw [h.result]
  exact List.getElem?_set_self (by simpa using hlt)

theorem other (h : t.Transposed a b p q t') {i : Nat} (ha : i ≠ a) (hb : i ≠ b) :
    t'.assigned[i]? = t.assigned[i]? := by
  rw [h.result]
  show ((t.assigned.set a (some q)).set b (some p))[i]? = _
  rw [List.getElem?_set_ne hb.symm, List.getElem?_set_ne ha.symm]

theorem events_eq (h : t.Transposed a b p q t') : t'.events = t.events := by
  rw [h.result]

theorem clashes_eq (h : t.Transposed a b p q t') : t'.Clashes = t.Clashes := by
  rw [h.result]
  rfl

/-- The same events are placed. -/
theorem placed (h : t.Transposed a b p q t') {i : Nat} {r : Placement α}
    (hr : t'.assigned[i]? = some (some r)) : ∃ r', t.assigned[i]? = some (some r') := by
  by_cases ha : i = a
  · exact ⟨p, ha ▸ h.placedA⟩
  by_cases hb : i = b
  · exact ⟨q, hb ▸ h.placedB⟩
  exact ⟨r, (h.other ha hb).symm.trans hr⟩

/-- Exchanging the placements once more gives the first timetable back. -/
theorem set_back (h : t.Transposed a b p q t') :
    { t' with assigned := (t'.assigned.set a (some p)).set b (some q) } = t := by
  have hassigned : (t'.assigned.set a (some p)).set b (some q) = t.assigned := by
    refine List.ext_getElem? fun i => ?_
    by_cases hb : i = b
    · subst hb
      obtain ⟨hlt, -⟩ := List.getElem?_eq_some_iff.1 h.second
      rw [List.getElem?_set_self (by simpa using hlt), h.placedB]
    rw [List.getElem?_set_ne (Ne.symm hb)]
    by_cases ha : i = a
    · subst ha
      obtain ⟨hlt, -⟩ := List.getElem?_eq_some_iff.1 h.first
      rw [List.getElem?_set_self hlt, h.placedA]
    rw [List.getElem?_set_ne (Ne.symm ha), h.other ha hb]
  rw [hassigned, h.result]

/-- Between timetables without clashes the same swap, whatever its effect was said to be, takes the
exchange back. -/
theorem commit_back [Scalar α] (h : t.Transposed a b p q t')
    (hclash : Table.ClashFree t.Clashes t.assigned) {e f : Course α} (he : t.events[a]? = some e)
    (hf : t.events[b]? = some f) (delta : α) : (SwapMove.mk a b delta).commit t' = .ok () t := by
  have hcommit : (SwapMove.mk a b delta).commit t' =
      .ok () { t' with assigned := (t'.assigned.set a (some p)).set b (some q) } := by
    refine commit_of_free h.ne h.first h.second (h.events_eq ▸ he) (h.events_eq ▸ hf) ?_ ?_
    · rw [h.clashes_eq]
      exact hclash a b p q h.ne h.placedA h.placedB
    · -- the third events are where they were when both events had their old places
      intro i r ha hb hr
      rw [h.clashes_eq]
      have hr := (h.other ha hb).symm.trans hr
      exact ⟨hclash a i p r ha.symm h.placedA hr, hclash b i q r hb.symm h.placedB hr⟩
  rw [hcommit, h.set_back]

end Transposed

variable [Scalar α]

/-- Committing an evaluated swap exchanges the placements. -/
theorem Exchange.commit_transposes {delta : α} {p' q' : Placement α} {e f : Course α}
    (h : t.Exchange a b delta p q p' q' e f) (hab : a ≠ b) :
    ∃ t', (SwapMove.mk a b delta).commit t = .ok () t' ∧ t.Transposed a b p q t' :=
  ⟨_, h.commit_eq hab, hab, h.placedA, h.placedB, rfl⟩

/-- On a timetable without conflicts a swap that the model has evaluated puts either event at the
placement of the other one and moves nothing else. There are no conflicts afterwards, and the same
swap made once more gives the timetable back. -/
theorem swap_transposes {s : SwapMove α} (ht : t.hasHardConflicts = .ok false)
    (hs : SwapMove.of? t a b = .ok (some s)) :
    ∃ p q, t.assigned[a]? = some (some p) ∧ t.assigned[b]? = some (some q) ∧
    ∃ t' : Timetable α, s.commit t = .ok () t' ∧
      t'.assigned[a]? = some (some q) ∧ t'.assigned[b]? = some (some p) ∧
      (∀ i, i ≠ a → i ≠ b → t'.assigned[i]? = t.assigned[i]?) ∧
      t'.hasHardConflicts = .ok false ∧ s.commit t' = .ok () t := by
  obtain ⟨rfl, rfl, hab, -, -, hdelta⟩ := SwapMove.of?_eq_some hs
  obtain ⟨p, q, p', q', e, f, h⟩ := exchange_of_swapDelta hdelta
  obtain ⟨t', hcommit, htransposed⟩ := h.commit_transposes hab
  have hclash := clashFree_of_hasHardConflicts ht
  -- every one of the four steps of the commit keeps the timetable free of clashes
  have hsound : Model.Sound t' :=
    (Move.commit_ensures Model.invariant_sound (.swap s)).of_ok hclash hcommit
  refine ⟨p, q, h.placedA, h.placedB, t', hcommit, htransposed.first, htransposed.second,
    fun i ha hb => htransposed.other ha hb, ?_, htransposed.commit_back hclash h.eventA h.eventB _⟩
  refine hasHardConflicts_of_clashFree (fun v r hv => ?_) hsound
  obtain ⟨r', hv⟩ := htransposed.placed hv
  rw [htransposed.events_eq]
  exact lt_length_of_hasHardConflicts ht hv

/-- Three events of two curricula in two rooms. The first two are of one curriculum and in one
room. -/
def trio (first second : Placement ℚ) : Timetable ℚ :=
  ⟨[⟨"A", 0, [⟨0, 0, 1⟩, ⟨1, 0, 2⟩]⟩, ⟨"B", 0, [⟨0, 0, 3⟩, ⟨1, 0, 4⟩]⟩, ⟨"C", 1, [⟨1, 1, 0⟩]⟩],
    [some first, some second, some ⟨1, 1, 0⟩], none⟩

/-- Neither of two events of one curriculum that exchange their places in a room loses its own. -/
theorem swap_transposes_trio :
    let t := trio ⟨0, 0, 1⟩ ⟨1, 0, 4⟩
    let s : SwapMove ℚ := ⟨0, 1, 0⟩
    t.hasHardConflicts = .ok false ∧ SwapMove.of? t 0 1 = .ok (some s) ∧
    ∃ p q, t.assigned[0]? = some (some p) ∧ t.assigned[1]? = some (some q) ∧
    ∃ t' : Timetable ℚ, s.commit t = .ok () t' ∧
      t'.assigned[0]? = some (some q) ∧ t'.assigned[1]? = some (some p) ∧
      (∀ i, i ≠ 0 → i ≠ 1 → t'.assigned[i]? = t.assigned[i]?) ∧
      t'.hasHardConflicts = .ok false ∧ s.commit t' = .ok () t := by
  intro t s
  have ht : t.hasHardConflicts = .ok false := by decide +kernel
  have hs : SwapMove.of? t 0 1 = .ok (some s) := by decide +kernel
  exact ⟨ht, hs, swap_transposes ht hs⟩

end LocalSearch.Timetable
