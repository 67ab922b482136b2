import LocalSearch.Proofs.Exact
import LocalSearch.Proofs.Computation
import LocalSearch.Proofs.Config.Specification
import LocalSearch.Proofs.Selection.Supply
import LocalSearch.Proofs.Sequence.Draw
import LocalSearch.Proofs.Signs
import LocalSearch.Registry
import LocalSearch.Model.Penalty
/-!
# Where a wheel stops

A wheel passes over the weights that are not above zero. In exact arithmetic it stops at the weight
between whose prefix sums the spin lies; on floating-point numbers what is left of a spin is rounded
in every step, but the wheel still stops at a positive weight, if all weights are numbers and their
sum is finite. With a sum that is not finite the wheel is not spun: every index is as likely as any
other, that of a weight of zero included.

* `exists_goRound`: a wheel stops at a weight that takes part, whatever the arithmetic.
* `exists_goRound_between`: in exact arithmetic, where it stops.
* `Pool.Grown`: the pools that a specification and any use of them lead to.
* `stops_at_weight`: wheels and pools stop at positive weights.
-/

namespace LocalSearch

open Attempt

/-! ## Any arithmetic -/

section Any

variable {α : Type} [Scalar α]

theorem goRound_of_forall_le {weights : List α} (h : ∀ w ∈ weights, w ≤ 0) (spin : α)
    (index last : Nat) : goRound spin index last weights = last := by
  induction weights generalizing index with
  | nil => rfl
  | cons w rest ih =>
    obtain ⟨hw, hrest⟩ := List.forall_mem_cons.1 h
    rw [goRound_of_le hw]
    exact ih hrest (index + 1)

/-- Going round a wheel ends at a weight that takes part, if there is one. -/
theorem exists_goRound {weights : List α} (h : ∃ w ∈ weights, ¬ w ≤ 0) (spin : α)
    (index last : Nat) :
    ∃ i w, goRound spin index last weights = index + i ∧ weights[i]? = some w ∧ ¬ w ≤ 0 := by
  induction weights generalizing spin index last with
  | nil => simp at h
  | cons w rest ih =>
    by_cases hw : w ≤ 0
    · have hrest : ∃ w ∈ rest, ¬ w ≤ 0 := by simpa [hw] using h
      obtain ⟨i, w', hstop, hw'⟩ := ih hrest spin (index + 1) last
      exact ⟨i + 1, w', by rw [goRound_of_le hw, hstop]; omega, hw'⟩
    · by_cases hspin : spin < w
      · exact ⟨0, w, goRound_of_lt hw hspin, rfl, hw⟩
      · rw [goRound_of_not_lt hw hspin]
        by_cases hrest : ∃ w ∈ rest, ¬ w ≤ 0
        · obtain ⟨i, w', hstop, hw'⟩ := ih hrest (spin - w) (index + 1) index
          exact ⟨i + 1, w', by rw [hstop]; omega, hw'⟩
        · -- the last weight that takes part is taken whatever is left of the spin
          have hrest : ∀ w ∈ rest, w ≤ 0 := by simpa using hrest
          exact ⟨0, w, goRound_of_forall_le hrest (spin - w) (index + 1) index, rfl, hw⟩

end Any

/-! ## Floating-point numbers -/

section Rounded

variable {weights : List Float}

theorem totalWeight_pos (h : ∃ w ∈ weights, 0 < w) : 0 < totalWeight weights := by
  obtain ⟨w, hw, hpos⟩ := h
  have hmem : w ∈ weights.filter fun w => (0 : Float) < w :=
    List.mem_filter.2 ⟨hw, decide_eq_true hpos⟩
  refine Signs.zero_lt_sum (List.ne_nil_of_mem hmem) fun x hx => ?_
  exact of_decide_eq_true (List.mem_filter.1 hx).2

/-- A wheel of numbers with a finite sum stops at a positive weight, if there is one. -/
theorem exists_roulette_pos (hnumbers : ∀ w ∈ weights, w.isNaN = false)
    (hpos : ∃ w ∈ weights, 0 < w) (hfinite : (totalWeight weights).isFinite = true)
    (random : Random.Stream) :
    ∃ i w, (roulette weights random).1 = some i ∧ weights[i]? = some w ∧ 0 < w := by
  obtain ⟨w₀, hmem, hw₀⟩ := hpos
  rw [roulette_of_spun (List.ne_nil_of_mem hmem)
    ⟨totalWeight_pos ⟨w₀, hmem, hw₀⟩, (Signs.isFinite_eq _).trans hfinite⟩]
  obtain ⟨i, w, hstop, hw, hle⟩ := exists_goRound ⟨w₀, hmem, Signs.not_le_of_zero_lt hw₀⟩
    ((random.unit : Float × Random.Stream).1 * totalWeight weights) 0 0
  rw [Nat.zero_add] at hstop
  exact ⟨i, w, congrArg some hstop, hw,
    Signs.zero_lt_of_not_le (hnumbers w (List.mem_of_getElem? hw)) hle⟩

/-- Without a positive weight, or with a sum that is not finite, the wheel is not spun. -/
theorem roulette_uniform (hne : weights ≠ [])
    (h : (∀ w ∈ weights, ¬ 0 < w) ∨ (totalWeight weights).isFinite = false)
    (random : Random.Stream) :
    roulette weights random =
      (some (random.belowPositive weights.length).1, (random.belowPositive weights.length).2) := by
  refine roulette_of_not_spun hne (fun ⟨hpos, hfinite⟩ => ?_) random
  obtain hnone | hnot := h
  · have hempty : weights.filter (fun w => (0 : Float) < w) = [] :=
      List.filter_eq_nil_iff.2 fun w hw => by simpa using hnone w hw
    unfold totalWeight at hpos
    rw [hempty] at hpos
    exact absurd hpos (by decide)
  · rw [Signs.isFinite_eq, hnot] at hfinite
    cases hfinite

end Rounded

/-! ## Exact arithmetic -/

section Exact

variable {K : Type} [Field K] [LinearOrder K] [Scalar.Functions K]

@[simp]
theorem totalWeight_nil : totalWeight ([] : List K) = 0 := Scalar.sum_eq []

theorem totalWeight_cons (w : K) (weights : List K) :
    totalWeight (w :: weights) = (if 0 < w then w else 0) + totalWeight weights := by
  unfold totalWeight
  simp only [Scalar.sum_eq, Scalar.zero_eq, List.filter_cons, decide_eq_true_eq]
  split
  · rw [List.sum_cons]
  · rw [zero_add]

variable [IsStrictOrderedRing K]

theorem totalWeight_nonneg (weights : List K) : 0 ≤ totalWeight weights := by
  induction weights with
  | nil => exact totalWeight_nil.ge
  | cons w rest ih =>
    rw [totalWeight_cons]
    split
    · rename_i hw
      exact add_nonneg hw.le ih
    · rw [zero_add]
      exact ih

theorem totalWeight_pos_of_exists {weights : List K} (h : ∃ w ∈ weights, 0 < w) :
    0 < totalWeight weights := by
  induction weights with
  | nil => simp at h
  | cons w rest ih =>
    rw [totalWeight_cons]
    by_cases hw : 0 < w
    · rw [if_pos hw]
      exact add_pos_of_pos_of_nonneg hw (totalWeight_nonneg rest)
    · rw [if_neg hw, zero_add]
      exact ih (by simpa [hw] using h)

/-- A spin below the sum of the positive weights stops at the weight whose prefix sums it lies
between. -/
theorem exists_goRound_between {weights : List K} {spin : K} (hlow : 0 ≤ spin)
    (hhigh : spin < totalWeight weights) (index last : Nat) :
    ∃ i w, goRound spin index last weights = index + i ∧ weights[i]? = some w ∧ 0 < w ∧
      totalWeight (weights.take i) ≤ spin ∧ spin < totalWeight (weights.take (i + 1)) := by
  induction weights generalizing spin index last with
  | nil => exact absurd hhigh (by simpa using hlow)
  | cons w rest ih =>
    rw [totalWeight_cons] at hhigh
    by_cases hw : 0 < w
    · have hle : ¬ w ≤ (@OfNat.ofNat K 0 Scalar.instOfNat) := by
        rw [Scalar.zero_eq]
        exact hw.not_ge
      rw [if_pos hw] at hhigh
      by_cases hspin : spin < w
      · refine ⟨0, w, goRound_of_lt hle hspin, rfl, hw, ?_, ?_⟩
        · rw [List.take_zero, totalWeight_nil]
          exact hlow
        · rw [List.take_succ_cons, List.take_zero, totalWeight_cons, if_pos hw, totalWeight_nil,
            add_zero]
          exact hspin
      · obtain ⟨i, w', hstop, hget, hw', hfrom, hto⟩ :=
          ih (sub_nonneg.2 (not_lt.1 hspin)) (sub_lt_iff_lt_add'.2 hhigh) (index + 1) index
        refine ⟨i + 1, w', ?_, hget, hw', ?_, ?_⟩
        · rw [goRound_of_not_lt hle hspin, hstop]
          omega
        · rw [List.take_succ_cons, totalWeight_cons, if_pos hw]
          exact le_sub_iff_add_le'.1 hfrom
        · rw [List.take_succ_cons, totalWeight_cons, if_pos hw]
          exact sub_lt_iff_lt_add'.1 hto
    · have hle : w ≤ (@OfNat.ofNat K 0 Scalar.instOfNat) := by
        rw [Scalar.zero_eq]
        exact not_lt.1 hw
      rw [if_neg hw, zero_add] at hhigh
      obtain ⟨i, w', hstop, hget, hw', hfrom, hto⟩ := ih hlow hhigh (index + 1) last
      refine ⟨i + 1, w', ?_, hget, hw', ?_, ?_⟩
      · rw [goRound_of_le hle, hstop]
        omega
      · rw [List.take_succ_cons, totalWeight_cons, if_neg hw, zero_add]
        exact hfrom
      · rw [List.take_succ_cons, totalWeight_cons, if_neg hw, zero_add]
        exact hto

/-- The number that a wheel draws. -/
theorem unit_mem (random : Random.Stream) :
    0 ≤ (random.unit : K × Random.Stream).1 ∧ (random.unit : K × Random.Stream).1 < 1 := by
  show (0 : K) ≤ ((random.next64.1 >>> 11).toNat : K) / ((twoPow 53 : Nat) : K) ∧
    ((random.next64.1 >>> 11).toNat : K) / ((twoPow 53 : Nat) : K) < 1
  have hpos : (0 : K) < ((twoPow 53 : Nat) : K) := Nat.cast_pos.2 (by decide)
  refine ⟨div_nonneg (Nat.cast_nonneg _) hpos.le, (div_lt_one hpos).2 (Nat.cast_lt.2 ?_)⟩
  rw [UInt64.toNat_shiftRight, Nat.shiftRight_eq_div_pow]
  exact Nat.div_lt_of_lt_mul random.next64.1.toNat_lt

theorem exists_roulette_between {weights : List K} (h : ∃ w ∈ weights, 0 < w)
    (random : Random.Stream) :
    ∃ i w, (roulette weights random).1 = some i ∧ weights[i]? = some w ∧ 0 < w ∧
      totalWeight (weights.take i) ≤
        (random.unit : K × Random.Stream).1 * totalWeight weights ∧
      (random.unit : K × Random.Stream).1 * totalWeight weights <
        totalWeight (weights.take (i + 1)) := by
  have hpos := totalWeight_pos_of_exists h
  obtain ⟨hlow, hhigh⟩ := unit_mem (K := K) random
  obtain ⟨w₀, hmem, -⟩ := h
  rw [roulette_of_spun (List.ne_nil_of_mem hmem)
    ⟨Scalar.zero_eq.trans_lt hpos, decide_eq_true rfl⟩]
  obtain ⟨i, w, hstop, hw⟩ := exists_goRound_between (mul_nonneg hlow hpos.le)
    (mul_lt_of_lt_one_left hpos hhigh) 0 0
  rw [Nat.zero_add] at hstop
  exact ⟨i, w, congrArg some hstop, hw⟩

end Exact

/-! ## Pools -/

section Pools

variable {G M V α : Type} [Scalar α]

/-- A bonus that is read is not negative. -/
theorem Specification.not_neg_of_parsePart {part : List Char} {s : Specification α}
    (hone : ¬ (1 : α) < 0) (h : parsePart part = .ok s) : ¬ s.bonus < 0 := by
  unfold parsePart at h
  split at h
  · cases h
    exact hone
  · dsimp only at h
    split at h
    · cases h
    · split at h
      · cases h
      · rename_i hbonus
        cases h
        exact hbonus

theorem Specification.not_neg_of_parse {text : String} {specs : List (Specification α)}
    (hone : ¬ (1 : α) < 0) (h : parse text = .ok specs) : ∀ s ∈ specs, ¬ s.bonus < 0 := by
  intro s hs
  obtain ⟨hparts, -⟩ := parse_eq_ok_iff.1 h
  obtain ⟨part, -, hpart⟩ := (mem_of_mapM_eq_ok hparts).1 hs
  exact not_neg_of_parsePart hone hpart

/-- A new selector has a bonus that is not negative, and one point. -/
theorem Registry.of_mem_buildAll {build : String → Except SearchError G} {text : String}
    {selectors : List (Selector G α)} (hone : ¬ (1 : α) < 0)
    (h : buildAll build text = .ok selectors) {c : Selector G α} (hc : c ∈ selectors) :
    ¬ c.bonus < 0 ∧ c.points = 1 := by
  obtain ⟨specs, hspecs, h⟩ := bind_eq_ok_iff.1 h
  obtain ⟨s, hs, hbuilt⟩ := (mem_of_mapM_eq_ok h).1 hc
  obtain ⟨g, -, hbuilt⟩ := bind_eq_ok_iff.1 hbuilt
  cases hbuilt
  have hparse : Specification.parse text = .ok specs := mapError_eq_ok_iff.1 hspecs
  exact ⟨Specification.not_neg_of_parse hone hparse s hs, rfl⟩

variable [MoveGenerator G M V α]

namespace Selector

omit [Scalar α] in
/-- Preparing a selector leaves its bonus and its points alone. -/
theorem init_keeps_stakes {P : α → α → Prop} (model : M) :
    Ensures (fun c : Selector G α => P c.bonus c.points) (init model)
      (fun _ c => P c.bonus c.points) (fun c => P c.bonus c.points) := by
  unfold init
  refine Ensures.bind (Q := fun _ c => P c.bonus c.points) (ensures_modify fun _ h => h) fun _ => ?_
  exact ensures_focus fun c hc => ensures_any.mono (fun _ h => h) (fun _ _ _ => hc) fun _ _ => hc

omit [Scalar α] in
/-- So does asking it for a candidate. -/
theorem propose_keeps_stakes {P : α → α → Prop} (model : M) :
    Ensures (fun s : Selector G α × Random.Stream => P s.1.bonus s.1.points) (propose model)
      (fun _ s => P s.1.bonus s.1.points) (fun s => P s.1.bonus s.1.points) := by
  unfold propose
  refine Ensures.bind (Q := fun _ s => P s.1.bonus s.1.points) (ensures_modify fun _ h => h)
    fun _ => ?_
  refine Ensures.bind (Q := fun _ s => P s.1.bonus s.1.points) (ensures_focus fun s hs => ?_)
    fun c? => ?_
  · exact ensures_any.mono (fun _ h => h) (fun _ _ _ => hs) fun _ _ => hs
  · split
    · exact Ensures.bind (Q := fun _ s => P s.1.bonus s.1.points) (ensures_modify fun _ h => h)
        fun _ => ensures_pure fun _ h => h
    · exact ensures_pure fun _ h => h

end Selector

namespace Pool

/-- What use makes of a pool that is built from a specification and does not pick uniformly: it is
prepared, asked for candidates and changed in its mode, and its children gain and lose points. -/
inductive Grown (M : Type) [MoveGenerator G M V α] (build : String → Except SearchError G)
    (text : String) : Pool G α → Prop
  | built {children : List (Selector G α)} (h : Registry.buildAll build text = .ok children)
      (update : Bool) : Grown M build text ⟨children, false, update⟩
  | init {p : Pool G α} (h : Grown M build text p) (model : M) :
      Grown M build text ((Pool.init model).after p)
  | propose {p : Pool G α} (h : Grown M build text p) (model : M) (random : Random.Stream) :
      Grown M build text ((Pool.propose model).after (p, random)).1
  | setHillClimbing {p : Pool G α} (h : Grown M build text p) (enabled : Bool) :
      Grown M build text (p.setHillClimbing M enabled)
  | updatePoints {p : Pool G α} (h : Grown M build text p) {i : Nat} {child : Selector G α}
      (hchild : p.children[i]? = some child) (improvement : α) :
      Grown M build text (p.setChild i (child.updatePoints improvement))

variable {build : String → Except SearchError G} {text : String} {p : Pool G α}

/-- What holds of new children and is kept by an update of their points holds of the children. -/
theorem Grown.keeps {P : α → α → Prop} (h : p.Grown M build text) (hone : ¬ (1 : α) < 0)
    (hnew : ∀ b : α, ¬ b < 0 → P b 1)
    (hlearn : ∀ (c : Selector G α) (improvement : α), P c.bonus c.points →
      P c.bonus (c.updatePoints improvement).points) :
    p.Keeps (fun c => P c.bonus c.points) false := by
  induction h with
  | built h update =>
    refine ⟨rfl, fun c hc => ?_⟩
    obtain ⟨hbonus, hpoints⟩ := Registry.of_mem_buildAll hone h hc
    rw [hpoints]
    exact hnew c.bonus hbonus
  | init _ model ih => exact (init_keeps (Selector.init_keeps_stakes model)).after ih
  | @propose p _ model random ih =>
    have hpropose : Ensures (fun s : Selector G α × Random.Stream => P s.1.bonus s.1.points)
        (Selector.propose model) (fun _ s => P s.1.bonus s.1.points ∧ True)
        (fun s => P s.1.bonus s.1.points) :=
      (Selector.propose_keeps_stakes model).mono_post fun _ _ h => ⟨h, trivial⟩
    refine ((propose_keeps (R := fun _ => True) hpropose (fun child c? hchild => ?_)
      trivial).mono_post fun _ _ h => h.1).after (s := (p, random)) ih
    cases c? with
    | none => exact hlearn child 0 hchild
    | some c =>
      cases c with
      | eager move => exact hlearn child (-move.delta) hchild
      | lazy _ => exact hchild
  | setHillClimbing _ enabled ih =>
    refine ⟨ih.1, fun c hc => ?_⟩
    obtain ⟨c', hc', rfl⟩ := List.mem_map.1 hc
    exact ih.2 c' hc'
  | updatePoints _ hchild improvement ih =>
    exact ih.setChild _ (hlearn _ improvement (ih.2 _ (List.mem_of_getElem? hchild)))

omit [MoveGenerator G M V α] in
/-- A pool that does not pick uniformly picks the child where the wheel over the weights stops. -/
theorem exists_pick {Q : α → Prop} {random : Random.Stream} (hrandom : p.random = false)
    (h : ∃ i w, (roulette (p.children.map Selector.weight) random).1 = some i ∧
      (p.children.map Selector.weight)[i]? = some w ∧ Q w) :
    ∃ i c, (p.pick random).1 = some i ∧ p.children[i]? = some c ∧ Q c.weight := by
  have hpick : p.pick random = roulette (p.children.map Selector.weight) random := by
    unfold pick
    rw [hrandom]
    cases hchildren : p.children with
    | nil => rfl
    | cons c rest => rfl
  obtain ⟨i, w, hstop, hw, hQ⟩ := h
  rw [List.getElem?_map, Option.map_eq_some_iff] at hw
  obtain ⟨c, hc, rfl⟩ := hw
  exact ⟨i, c, hpick ▸ hstop, hc, hQ⟩

/-- Bonuses of floating-point numbers do not become negative. -/
theorem Grown.bonus_not_neg [MoveGenerator G M V Float] {p : Pool G Float}
    (h : p.Grown M build text) : p.Keeps (fun c => ¬ c.bonus < 0) false :=
  h.keeps (P := fun bonus _ => ¬ bonus < 0) (by decide) (fun _ hb => hb) fun _ _ hb => hb

section Exact

variable {K : Type} [Field K] [LinearOrder K] [IsStrictOrderedRing K] [Scalar.Functions K]
  [MoveGenerator G M V K] {p : Pool G K}

/-- In exact arithmetic the points stay positive. -/
theorem Grown.points_pos (h : p.Grown M build text) : p.Keeps (fun c => 0 < c.points) false := by
  refine h.keeps (P := fun _ points => 0 < points) ?_ (fun _ _ => ?_) fun c x _ => ?_
  · rw [Scalar.zero_eq, Scalar.numeral_eq, Nat.cast_one]
    exact zero_le_one.not_gt
  · rw [Scalar.numeral_eq, Nat.cast_one]
    exact zero_lt_one
  · show 0 < Scalar.larger _ (OfScientific.ofScientific 1 true 3 : K)
    rw [Scalar.larger_eq]
    refine lt_max_of_lt_right ?_
    show (0 : K) < ((1 : Nat) : K) / 10 ^ 3
    positivity

/-- So the weight of a child is positive if and only if its bonus is. -/
theorem Grown.weight_pos_iff (h : p.Grown M build text) {c : Selector G K} (hc : c ∈ p.children) :
    0 < c.weight ↔ 0 < c.bonus :=
  mul_pos_iff_of_pos_right (h.points_pos.2 c hc)

end Exact

end Pool

end Pools

/-- Wheels and pools stop at positive weights. On floating-point numbers all weights must be
numbers, and the sum of the positive ones must be finite. -/
theorem stops_at_weight {K : Type} [Field K] [LinearOrder K] [IsStrictOrderedRing K]
    [Scalar.Functions K] :
    (∀ {G M V : Type} [MoveGenerator G M V Float] {build : String → Except SearchError G}
      {text : String} {p : Pool G Float}, p.Grown M build text →
      (∀ c ∈ p.children, c.weight.isNaN = false) → (∃ c ∈ p.children, 0 < c.weight) →
      (totalWeight (p.children.map Selector.weight)).isFinite = true → ∀ random,
      ∃ i c, (p.pick random).1 = some i ∧ p.children[i]? = some c ∧ 0 < c.weight ∧ 0 < c.bonus) ∧
    (∀ weights : List Float, (∀ w ∈ weights, w.isNaN = false) → (∃ w ∈ weights, 0 < w) →
      (totalWeight weights).isFinite = true → ∀ random,
      ∃ i w, (roulette weights random).1 = some i ∧ weights[i]? = some w ∧ 0 < w) ∧
    (∀ weights : List Float, weights ≠ [] →
      ((∀ w ∈ weights, ¬ 0 < w) ∨ (totalWeight weights).isFinite = false) → ∀ random,
      roulette weights random = (some (random.belowPositive weights.length).1,
        (random.belowPositive weights.length).2)) ∧
    (∀ {G M V : Type} [MoveGenerator G M V K] {build : String → Except SearchError G}
      {text : String} {p : Pool G K}, p.Grown M build text → (∃ c ∈ p.children, 0 < c.bonus) →
      ∀ random, ∃ i c, (p.pick random).1 = some i ∧ p.children[i]? = some c ∧ 0 < c.bonus) ∧
    (∀ weights : List K, (∃ w ∈ weights, 0 < w) → ∀ random,
      let u := (random.unit : K × Random.Stream).1
      0 ≤ u ∧ u < 1 ∧ ∃ i w, (roulette weights random).1 = some i ∧ weights[i]? = some w ∧
        0 < w ∧ totalWeight (weights.take i) ≤ u * totalWeight weights ∧
        u * totalWeight weights < totalWeight (weights.take (i + 1))) := by
  refine ⟨?_, fun _ => exists_roulette_pos, fun _ => roulette_uniform, ?_, ?_⟩
  · intro G M V _ build text p h hnumbers ⟨c₀, hc₀, hpos⟩ hfinite random
    obtain ⟨i, c, hpick, hc, hweight⟩ := Pool.exists_pick h.bonus_not_neg.1 <|
      exists_roulette_pos (List.forall_mem_map.2 hnumbers)
        ⟨c₀.weight, List.mem_map_of_mem hc₀, hpos⟩ hfinite random
    exact ⟨i, c, hpick, hc, hweight,
      Signs.zero_lt_of_mul (h.bonus_not_neg.2 c (List.mem_of_getElem? hc)) hweight⟩
  · intro G M V _ build text p h ⟨c₀, hc₀, hpos⟩ random
    obtain ⟨i, w, hstop, hw, hweight, -⟩ := exists_roulette_between
      ⟨c₀.weight, List.mem_map_of_mem hc₀, (h.weight_pos_iff hc₀).2 hpos⟩ random
    obtain ⟨i, c, hpick, hc, hweight⟩ :=
      Pool.exists_pick h.points_pos.1 ⟨i, w, hstop, hw, hweight⟩
    exact ⟨i, c, hpick, hc, (h.weight_pos_iff (List.mem_of_getElem? hc)).1 hweight⟩
  · intro weights h random
    exact ⟨(unit_mem random).1, (unit_mem random).2, exists_roulette_between h random⟩

namespace Pool

/-- Builds a built-in generator that is not a pool. -/
def buildPlain (key : String) : Except SearchError (BasicGenerator Empty) :=
  (Registry.builtin : Registry Empty).buildBasic ∅ key

/-- A pool whose second child has no weight. -/
def lopsided : Pool (BasicGenerator Empty) Float :=
  ⟨[.of "change" (.change false) 2, .of "swap" (.swap false) 0], false, true⟩

/-- The pool after its first child has gained points. -/
def rewarded : Pool (BasicGenerator Empty) Float :=
  lopsided.setChild 0 ((Selector.of "change" (.change false) 2).updatePoints 30)

theorem grown_rewarded : rewarded.Grown (Penalty Float) buildPlain "change@2;swap@0" :=
  .updatePoints (.built rfl true) rfl 30

/-- A pool of children with the same bonus. -/
def level : Pool (BasicGenerator Empty) ℚ :=
  ⟨[.of "change" (.change false) 1, .of "swap" (.swap false) 1], false, true⟩

theorem grown_level : level.Grown (Penalty ℚ) buildPlain "change;swap" :=
  .built rfl true

/-- A pool with an infinite bonus. -/
def endless : Pool (BasicGenerator Empty) Float :=
  ⟨[.of "change" (.change false) (1 / 0), .of "swap" (.swap false) 0], false, true⟩

/-- A pool whose first child has the least positive bonus, after some calls without success. -/
def fading (calls : Nat) : Pool (BasicGenerator Empty) Float :=
  ⟨[(Selector.updatePoints · 0)^[calls] (.of "change" (.change false) 5e-324),
    .of "swap" (.swap false) 0], false, true⟩

theorem parse_fading : Specification.parse "change@5e-324;swap@0" =
    .ok [⟨"change", (5e-324 : Float)⟩, ⟨"swap", 0⟩] :=
  eq_ok_of_toOption (by decide +kernel)

theorem grown_fading (calls : Nat) :
    (fading calls).Grown (Penalty Float) buildPlain "change@5e-324;swap@0" := by
  induction calls with
  | zero =>
    refine .built ?_ true
    unfold Registry.buildAll
    rw [parse_fading]
    rfl
  | succ calls ih =>
    have hnext := ih.updatePoints (i := 0) rfl 0
    unfold fading at hnext ⊢
    rw [Function.iterate_succ_apply']
    exact hnext

end Pool

theorem stops_at_weight_rewarded :
    (∃ i c, (Pool.rewarded.pick (.standard 0)).1 = some i ∧ Pool.rewarded.children[i]? = some c ∧
      0 < c.weight ∧ 0 < c.bonus) ∧
    (∃ i w, (roulette [0, 3, -1, (2 : Float)] (.standard 0)).1 = some i ∧
      [0, 3, -1, (2 : Float)][i]? = some w ∧ 0 < w) ∧
    (roulette [1 / 0, (0 : Float)] (.standard 0)).1 =
      some ((Random.Stream.standard 0).belowPositive 2).1 ∧
    (∃ i c, (Pool.level.pick (.standard 0)).1 = some i ∧ Pool.level.children[i]? = some c ∧
      0 < c.bonus) ∧
    ∃ i w, (roulette [0, 3, -1, (2 : ℚ)] (.standard 0)).1 = some i ∧
      [0, 3, -1, (2 : ℚ)][i]? = some w ∧ 0 < w := by
  obtain ⟨hpool, hwheel, huniform, hexact, hbetween⟩ := stops_at_weight (K := ℚ)
  refine ⟨?_, ?_, ?_, ?_, ?_⟩
  · exact hpool Pool.grown_rewarded (by decide +kernel) (by decide +kernel) (by decide +kernel) _
  · exact hwheel _ (by decide +kernel) (by decide +kernel) (by decide +kernel) _
  · exact congrArg Prod.fst
      (huniform [1 / 0, 0] (by simp) (.inr (by decide +kernel)) (.standard 0))
  · exact hexact Pool.grown_level ⟨_, List.mem_cons_self, by decide +kernel⟩ _
  · obtain ⟨-, -, i, w, hstop, hw, hpos, -⟩ :=
      hbetween [0, 3, -1, 2] ⟨3, by simp, by norm_num⟩ (.standard 0)
    exact ⟨i, w, hstop, hw, hpos⟩

theorem not_exists_of_eq {β : Type} {items : List β} {i? : Option Nat} {i : Nat} {b : β}
    {Q : β → Prop} (hi : i? = some i) (hb : items[i]? = some b) (hQ : ¬ Q b) :
    ¬ ∃ j c, i? = some j ∧ items[j]? = some c ∧ Q c := by
  rintro ⟨j, c, hj, hc, hQc⟩
  cases hi.symm.trans hj
  cases hb.symm.trans hc
  exact hQ hQc

/-- A child without bonus can be picked: an infinite bonus makes a sum that is not finite, and the
product of the least positive bonus with few points is zero. A wheel can stop at what is no
number. -/
theorem not_stops_at_weight :
    (Pool.endless.Grown (Penalty Float) Pool.buildPlain "change@inf;swap@0" ∧
      (∃ c ∈ Pool.endless.children, 0 < c.bonus) ∧
      ¬ ∃ i c, (Pool.endless.pick (.standard 0)).1 = some i ∧
        Pool.endless.children[i]? = some c ∧ 0 < c.bonus) ∧
    ((Pool.fading 8).Grown (Penalty Float) Pool.buildPlain "change@5e-324;swap@0" ∧
      (∃ c ∈ (Pool.fading 8).children, 0 < c.bonus) ∧
      ¬ ∃ i c, ((Pool.fading 8).pick (.standard 0)).1 = some i ∧
        (Pool.fading 8).children[i]? = some c ∧ 0 < c.bonus) ∧
    ¬ ∃ i w, (roulette [0 / 0, 1, 0 / (0 : Float)] (.standard 0)).1 = some i ∧
      [0 / 0, 1, 0 / (0 : Float)][i]? = some w ∧ 0 < w := by
  have hendless : (Pool.endless.pick (.standard 0)).1 = some 1 := by decide +kernel
  have hfading : ((Pool.fading 8).pick (.standard 0)).1 = some 1 := by decide +kernel
  have hwheel : (roulette [0 / 0, 1, 0 / (0 : Float)] (.standard 0)).1 = some 2 := by
    decide +kernel
  refine ⟨⟨.built rfl true, by decide +kernel, ?_⟩,
    ⟨Pool.grown_fading 8, by decide +kernel, ?_⟩, ?_⟩
  · exact not_exists_of_eq hendless rfl (by decide +kernel)
  · exact not_exists_of_eq hfading rfl (by decide +kernel)
  · exact not_exists_of_eq hwheel rfl (by decide +kernel)

end LocalSearch
