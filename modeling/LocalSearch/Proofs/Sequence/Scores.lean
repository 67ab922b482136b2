import Mathlib.Data.List.Basic
import LocalSearch.Proofs.Computation
import LocalSearch.Sequence.Scores
/-!
# Shape of the score tables

The tables of `k` selectors have a row for each selector and one more, and a column for each
selector. Whoever stays inside these bounds can read the tables and learn into them.

* `Scores.Covers`: tables for `k` selectors. Fresh tables are such tables, and a reward keeps them.
* `Scores.exists_transition`, `Scores.exists_outcome`: reading.
* `Scores.rewarded`: what a reward makes of the tables. `Scores.reward_eq`: it does not fail.
-/

namespace LocalSearch.Scores

variable {α : Type} {s : Scores α} {k row c : Nat} {ended : Bool}

/-- The tables of `k` selectors. -/
structure Covers (s : Scores α) (k : Nat) : Prop where
  length_transitions : s.transitions.length = k + 1
  length_row : ∀ scores ∈ s.transitions, scores.length = k
  length_outcomes : s.outcomes.length = k

/-- A row of the transition scores is as long as there are selectors. -/
theorem Covers.exists_row (h : s.Covers k) (hrow : row ≤ k) :
    ∃ scores, s.transitions[row]? = some scores ∧ scores.length = k := by
  have hlt : row < s.transitions.length := by
    rw [h.length_transitions]
    omega
  exact ⟨s.transitions[row], List.getElem?_eq_getElem hlt, h.length_row _ (List.getElem_mem hlt)⟩

theorem Covers.exists_outcomes (h : s.Covers k) (hc : c < k) :
    ∃ pair, s.outcomes[c]? = some pair := by
  have hlt : c < s.outcomes.length := by
    rw [h.length_outcomes]
    exact hc
  exact ⟨s.outcomes[c], List.getElem?_eq_getElem hlt⟩

theorem covers_fresh [Scalar α] (k : Nat) : (fresh k : Scores α).Covers k := by
  refine ⟨List.length_replicate, fun scores hscores => ?_, List.length_replicate⟩
  rw [List.eq_of_mem_replicate hscores]
  exact List.length_replicate

theorem Covers.reset [Scalar α] (h : s.Covers k) : s.reset.Covers k := by
  have hfresh := covers_fresh (α := α) s.selectorCount
  unfold selectorCount at hfresh
  rw [h.length_outcomes] at hfresh
  unfold Scores.reset selectorCount
  rw [h.length_outcomes]
  exact hfresh

/-! ## Reading -/

theorem exists_transition (h : s.Covers k) (hrow : row ≤ k) (hc : c < k) :
    ∃ score, s.transition row c = .ok score := by
  obtain ⟨scores, hscores, hlength⟩ := h.exists_row hrow
  have hlt : c < scores.length := by
    rw [hlength]
    exact hc
  refine ⟨scores[c], bind_eq_ok_iff.2 ⟨scores, fetch_eq_ok_iff.2 hscores, ?_⟩⟩
  exact fetch_eq_ok_iff.2 (List.getElem?_eq_getElem hlt)

theorem exists_outcome (h : s.Covers k) (hc : c < k) (ended : Bool) :
    ∃ score, s.outcome c ended = .ok score := by
  obtain ⟨pair, hpair⟩ := h.exists_outcomes hc
  exact ⟨_, bind_eq_ok_iff.2 ⟨pair, fetch_eq_ok_iff.2 hpair, rfl⟩⟩

/-! ## Learning -/

section

variable [Scalar α] {amount : α}

/-- A selector's two outcome scores after a reward. -/
def raiseOutcome (ended : Bool) (amount : α) (pair : α × α) : α × α :=
  if ended then (pair.1, pair.2 + amount) else (pair.1 + amount, pair.2)

/-- The tables with an amount added to one cell of each. -/
def raise (s : Scores α) (row c : Nat) (ended : Bool) (amount : α) : Scores α :=
  ⟨s.transitions.modify row fun scores => scores.modify c (· + amount),
    s.outcomes.modify c (raiseOutcome ended amount)⟩

omit [Scalar α] in
/-- Writing back a changed item changes it. -/
theorem store_eq_modify {β : Type} {items : List β} {i : Nat} {b : β} (f : β → β)
    (h : items[i]? = some b) : store items i (f b) = .ok (items.modify i f) := by
  refine store_eq_ok_iff.2 ⟨(List.getElem?_eq_some_iff.1 h).1, ?_⟩
  rw [List.modify_eq_set_getElem?, h]
  rfl

/-- The tables after a reward: a positive amount is added to one cell of each table, and nothing
happens for any other. -/
def rewarded (s : Scores α) (row c : Nat) (ended : Bool) (amount : α) : Scores α :=
  if (0 : α) < amount then s.raise row c ended amount else s

/-- A reward within the bounds does not fail. -/
theorem reward_eq (h : s.Covers k) (hrow : row ≤ k) (hc : c < k) (ended : Bool) (amount : α) :
    s.reward row c ended amount = .ok (s.rewarded row c ended amount) := by
  unfold reward rewarded
  by_cases hpos : (0 : α) < amount
  · obtain ⟨scores, hscores, hlength⟩ := h.exists_row hrow
    obtain ⟨pair, hpair⟩ := h.exists_outcomes hc
    have hlt : c < scores.length := by
      rw [hlength]
      exact hc
    have hcell := List.getElem?_eq_getElem hlt
    have hpair' := store_eq_modify (raiseOutcome ended amount) hpair
    have hscores' := store_eq_modify (fun scores => scores.modify c (· + amount)) hscores
    rw [if_neg (not_not_intro hpos), if_pos hpos, fetch_eq_ok_iff.2 hscores, ok_bind,
      fetch_eq_ok_iff.2 hcell, ok_bind, store_eq_modify (· + amount) hcell, ok_bind,
      fetch_eq_ok_iff.2 hpair, ok_bind, hscores']
    exact bind_eq_ok_iff.2 ⟨_, rfl, bind_eq_ok_iff.2 ⟨_, hpair', rfl⟩⟩
  · rw [if_pos hpos, if_neg hpos]
    rfl

theorem covers_raise (h : s.Covers k) : (s.raise row c ended amount).Covers k := by
  refine ⟨?_, fun scores hscores => ?_, ?_⟩
  · exact (List.length_modify _ _ _).trans h.length_transitions
  · obtain ⟨i, hi⟩ := List.getElem?_of_mem hscores
    unfold raise at hi
    rw [List.getElem?_modify] at hi
    obtain ⟨scores', hscores', rfl⟩ := Option.map_eq_some_iff.1 hi
    have hlength := h.length_row scores' (List.mem_of_getElem? hscores')
    split
    · exact (List.length_modify _ _ _).trans hlength
    · exact hlength
  · exact (List.length_modify _ _ _).trans h.length_outcomes

/-- A reward keeps the shape. -/
theorem covers_rewarded (h : s.Covers k) : (s.rewarded row c ended amount).Covers k := by
  unfold rewarded
  split
  · exact covers_raise h
  · exact h

end

end LocalSearch.Scores
