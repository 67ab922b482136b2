import LocalSearch.Proofs.Exact
import LocalSearch.Proofs.Sequence.Scores
/-!
# What the score tables add up to

In exact arithmetic a reward puts the same amount into the column of a selector in the transition
scores and into its pair of outcome scores, so both add up to what the selector has earned.

* `Scores.followed`, `Scores.used`: the two sums, without the ones that the cells start from.
* `Scores.Balanced`: tables in which both sums are known for every selector.
* `Scores.AtMost`: no cell is lower than in other tables.
* `Scores.RaisedOnce`: at most one cell of each table has changed.
-/

namespace LocalSearch.Scores

variable {K : Type} [Field K] [LinearOrder K] [Scalar.Functions K]
  {s s' : Scores K} {k row c c' : Nat} {ended : Bool} {amount : K}

/-- The scores of a selector after all rows, less one for each. -/
def followed (s : Scores K) (c : Nat) : K :=
  (s.transitions.map fun scores => scores.getD c 1 - 1).sum

/-- Both outcome scores of a selector, less one for each. -/
def used (s : Scores K) (c : Nat) : K :=
  ((s.outcomes.getD c (1, 1)).1 - 1) + ((s.outcomes.getD c (1, 1)).2 - 1)

/-- Tables for `k` selectors without a cell below one in which both sums of a selector are what it
has earned. -/
structure Balanced (s : Scores K) (k : Nat) (earned : Nat → K) : Prop where
  covers : s.Covers k
  followed_eq : ∀ c < k, s.followed c = earned c
  used_eq : ∀ c < k, s.used c = earned c
  one_le_transition : ∀ scores ∈ s.transitions, ∀ score ∈ scores, 1 ≤ score
  one_le_outcome : ∀ pair ∈ s.outcomes, 1 ≤ pair.1 ∧ 1 ≤ pair.2

/-- No cell is lower than in other tables of the same shape. -/
structure AtMost (s s' : Scores K) : Prop where
  transitions : List.Forall₂ (List.Forall₂ (· ≤ ·)) s.transitions s'.transitions
  outcomes : List.Forall₂ (fun pair pair' => pair.1 ≤ pair'.1 ∧ pair.2 ≤ pair'.2)
    s.outcomes s'.outcomes

/-- Nothing was changed but one cell of each table, which was raised by the same amount, or nothing
at all. -/
def RaisedOnce (s s' : Scores K) : Prop :=
  s' = s ∨ ∃ row c ended amount, 0 < amount ∧ s' = s.raise row c ended amount

theorem one_eq : (@OfNat.ofNat K 1 Scalar.instOfNat) = 1 :=
  Nat.cast_one

/-! ## Sums -/

/-- The sum over a list after one item was changed. -/
theorem sum_map_modify {β : Type} {items : List β} {i : Nat} {b : β} (h : items[i]? = some b)
    (f : β → β) (g : β → K) :
    ((items.modify i f).map g).sum = (items.map g).sum + (g (f b) - g b) := by
  induction items generalizing i with
  | nil => cases h
  | cons a rest ih =>
    cases i with
    | zero =>
      cases h
      rw [List.modify_zero_cons, List.map_cons, List.map_cons, List.sum_cons, List.sum_cons]
      ring
    | succ i =>
      have hrest := ih (i := i) h
      rw [List.modify_succ_cons, List.map_cons, List.map_cons, List.sum_cons, List.sum_cons, hrest]
      ring

/-- A list of one item over and over has no other. -/
theorem getD_replicate_same {β : Type} (n i : Nat) (b : β) : (List.replicate n b).getD i b = b := by
  rw [List.getD_eq_getElem?_getD, List.getElem?_replicate]
  split
  · rfl
  · rfl

theorem followed_fresh (k c : Nat) : (fresh k : Scores K).followed c = 0 := by
  unfold followed fresh
  rw [one_eq, List.map_replicate, getD_replicate_same, sub_self, List.sum_replicate, smul_zero]

theorem used_fresh (k c : Nat) : (fresh k : Scores K).used c = 0 := by
  unfold used fresh
  rw [one_eq, getD_replicate_same, sub_self, add_zero]

theorem followed_raise (h : s.Covers k) (hrow : row ≤ k) (hc : c < k) (c' : Nat) :
    (s.raise row c ended amount).followed c' = s.followed c' + if c = c' then amount else 0 := by
  obtain ⟨scores, hscores, hlength⟩ := h.exists_row hrow
  have hlt : c < scores.length := by
    rw [hlength]
    exact hc
  unfold followed raise
  rw [sum_map_modify hscores]
  congr 1
  rw [List.getD_eq_getElem?_getD, List.getD_eq_getElem?_getD]
  by_cases hsame : c = c'
  · subst hsame
    rw [if_pos rfl, List.getElem?_modify_eq, List.getElem?_eq_getElem hlt]
    simp
  · rw [if_neg hsame, List.getElem?_modify_ne _ _ hsame, sub_self]

theorem used_raise (h : s.Covers k) (hc : c < k) (c' : Nat) :
    (s.raise row c ended amount).used c' = s.used c' + if c = c' then amount else 0 := by
  obtain ⟨pair, hpair⟩ := h.exists_outcomes hc
  unfold used raise
  rw [List.getD_eq_getElem?_getD, List.getD_eq_getElem?_getD]
  by_cases hsame : c = c'
  · subst hsame
    rw [if_pos rfl, List.getElem?_modify_eq, hpair]
    unfold raiseOutcome
    cases ended with
    | true =>
      show pair.1 - 1 + (pair.2 + amount - 1) = pair.1 - 1 + (pair.2 - 1) + amount
      ring
    | false =>
      show pair.1 + amount - 1 + (pair.2 - 1) = pair.1 - 1 + (pair.2 - 1) + amount
      ring
  · rw [if_neg hsame, List.getElem?_modify_ne _ _ hsame, add_zero]

/-! ## Order -/

section

variable [IsStrictOrderedRing K]

omit [IsStrictOrderedRing K] in
theorem AtMost.refl (s : Scores K) : s.AtMost s :=
  ⟨List.forall₂_same.2 fun _ _ => List.forall₂_same.2 fun _ _ => le_refl _,
    List.forall₂_same.2 fun _ _ => ⟨le_refl _, le_refl _⟩⟩

/-- Changing an item for something greater. -/
theorem forall₂_modify {β : Type} {r : β → β → Prop} (hrefl : ∀ b, r b b) {f : β → β}
    (hf : ∀ b, r b (f b)) (items : List β) (i : Nat) : List.Forall₂ r items (items.modify i f) := by
  induction items generalizing i with
  | nil =>
    rw [List.modify_nil]
    exact .nil
  | cons b rest ih =>
    cases i with
    | zero => exact .cons (hf b) (List.forall₂_same.2 fun b _ => hrefl b)
    | succ i => exact .cons (hrefl b) (ih i)

theorem atMost_raise (hamount : 0 < amount) (s : Scores K) (row c : Nat) (ended : Bool) :
    s.AtMost (s.raise row c ended amount) := by
  have hle (a : K) : a ≤ a + amount := le_add_of_nonneg_right (le_of_lt hamount)
  refine ⟨forall₂_modify ?_ ?_ _ row, forall₂_modify ?_ ?_ _ c⟩
  · exact fun scores => List.forall₂_same.2 fun _ _ => le_refl _
  · exact fun scores => forall₂_modify (fun a => le_refl a) hle scores c
  · exact fun pair => ⟨le_refl _, le_refl _⟩
  · intro pair
    unfold raiseOutcome
    cases ended with
    | true => exact ⟨le_refl _, hle pair.2⟩
    | false => exact ⟨hle pair.1, le_refl _⟩

/-- A table that was raised has not become lower anywhere. -/
theorem RaisedOnce.atMost (h : s.RaisedOnce s') : s.AtMost s' := by
  rcases h with rfl | ⟨row, c, ended, amount, hamount, rfl⟩
  · exact .refl s'
  · exact atMost_raise hamount s row c ended

/-- What is not lower than something is at least one if that is. -/
theorem forall_of_forall₂ {β : Type} {r : β → β → Prop} {P : β → Prop}
    (hP : ∀ b b', r b b' → P b → P b') {items items' : List β} (h : List.Forall₂ r items items')
    (hitems : ∀ b ∈ items, P b) : ∀ b ∈ items', P b := by
  induction h with
  | nil => exact nofun
  | cons hhead _ ih =>
    intro b hb
    rcases List.mem_cons.1 hb with rfl | hb
    · exact hP _ _ hhead (hitems _ List.mem_cons_self)
    · exact ih (fun b hb => hitems b (List.mem_cons_of_mem _ hb)) b hb

/-! ## Balanced tables -/

omit [IsStrictOrderedRing K] in
theorem balanced_fresh (k : Nat) : (fresh k : Scores K).Balanced k fun _ => 0 := by
  refine ⟨covers_fresh k, fun c _ => followed_fresh k c, fun c _ => used_fresh k c, ?_, ?_⟩
  · intro scores hscores score hscore
    rw [List.eq_of_mem_replicate hscores] at hscore
    rw [List.eq_of_mem_replicate hscore, one_eq]
  · intro pair hpair
    rw [List.eq_of_mem_replicate hpair, one_eq]
    exact ⟨le_refl _, le_refl _⟩

omit [IsStrictOrderedRing K] in
theorem Balanced.reset {earned : Nat → K} (h : s.Balanced k earned) :
    s.reset.Balanced k fun _ => 0 := by
  unfold Scores.reset selectorCount
  rw [h.covers.length_outcomes]
  exact balanced_fresh k

/-- What is earned by a selector goes into both tables. -/
theorem Balanced.raise {earned : Nat → K} (h : s.Balanced k earned) (hrow : row ≤ k) (hc : c < k)
    (hamount : 0 < amount) (ended : Bool) :
    (s.raise row c ended amount).Balanced k fun c' =>
      earned c' + if c = c' then amount else 0 := by
  have hle := atMost_raise hamount s row c ended
  refine ⟨covers_raise h.covers, fun c' hc' => ?_, fun c' hc' => ?_, ?_, ?_⟩
  · rw [followed_raise h.covers hrow hc, h.followed_eq c' hc']
  · rw [used_raise h.covers hc, h.used_eq c' hc']
  · refine forall_of_forall₂ (fun scores scores' hscores hone => ?_) hle.transitions
      h.one_le_transition
    exact forall_of_forall₂ (fun _ _ hle hone => le_trans hone hle) hscores hone
  · exact forall_of_forall₂ (fun _ _ hle hone =>
      ⟨le_trans hone.1 hle.1, le_trans hone.2 hle.2⟩) hle.outcomes h.one_le_outcome

/-- A reward that is not negative is earned, if it is nothing then without a trace. -/
theorem Balanced.rewarded {earned : Nat → K} (h : s.Balanced k earned) (hrow : row ≤ k) (hc : c < k)
    (hamount : 0 ≤ amount) (ended : Bool) :
    (s.rewarded row c ended amount).Balanced k fun c' =>
      earned c' + if c = c' then amount else 0 := by
  unfold Scores.rewarded
  rw [Scalar.zero_eq]
  by_cases hpos : 0 < amount
  · rw [if_pos hpos]
    exact h.raise hrow hc hpos ended
  · rw [if_neg hpos]
    have hzero : amount = 0 := le_antisymm (le_of_not_gt hpos) hamount
    subst hzero
    have hsame : (fun c' => earned c' + if c = c' then (0 : K) else 0) = earned := by
      funext c'
      rw [ite_self, add_zero]
    rw [hsame]
    exact h

omit [IsStrictOrderedRing K] in
theorem raisedOnce_rewarded (s : Scores K) (row c : Nat) (ended : Bool) (amount : K) :
    s.RaisedOnce (s.rewarded row c ended amount) := by
  unfold Scores.rewarded
  rw [Scalar.zero_eq]
  by_cases hpos : 0 < amount
  · rw [if_pos hpos]
    exact .inr ⟨row, c, ended, amount, hpos, rfl⟩
  · rw [if_neg hpos]
    exact .inl rfl

end

end LocalSearch.Scores
