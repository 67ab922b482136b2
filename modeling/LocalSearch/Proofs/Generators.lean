import LocalSearch.Proofs.Model.Answers
/-!
# Generators of the two models

* `Candidate.Confined`: a candidate whose commit touches none but its own variables, and leaves no
  other variables without a value than before. `BasicGenerator.Seeks.confined`: the candidates of
  the generators are such.
* `BasicGenerator.propose_exact`: what the generators find, and that it is confined, for either
  model.
* `BasicGenerator.propose_unpriced`: without effects to compare, a generator fails.
-/

namespace LocalSearch

open Attempt

variable {M V α : Type} [Model M V α] {m : M}

/-! ## What committing a candidate touches -/

section

/-- The second model has other values than the first one at most for some variables, and the same
variables without a value. -/
structure Model.Touches (vars : List Nat) (m m' : M) : Prop where
  others : ∀ i, i ∉ vars → Model.assignment m' i = Model.assignment m i
  unassigned : ∀ i, Model.assignment m' i = .ok none ↔ Model.assignment m i = .ok none

/-- Committing a candidate succeeds, and neither evicts nor changes other variables than its own.
A lazy candidate does so whatever the predicate that decides on it. -/
def Candidate.Confined [Scalar α] (m : M) : Candidate V α → Prop
  | .eager (.change c) => ∃ m', c.commit m = .ok () m' ∧ Model.Touches [c.var] m m'
  | .eager (.swap s) => ∃ m', s.commit m = .ok () m' ∧ Model.Touches [s.first, s.second] m m'
  | .lazy c => ∀ accept : M → α → α → Bool,
      ∃ r m', c.commit accept m = .ok r m' ∧ Model.Touches [c.var] m m'

open Model.Tables (assigned)

variable [Model.Tabular M] {m' : M}

theorem Model.touches_of_becomes {a : Table V} {vars : List Nat} (h : Model.Becomes m a m')
    (hlength : a.length = (assigned m).length)
    (hothers : ∀ i, i ∉ vars → a[i]? = (assigned m)[i]?)
    (hvars : ∀ i ∈ vars, (∃ x, a[i]? = some (some x)) ∧ ∃ x, (assigned m)[i]? = some (some x)) :
    Model.Touches vars m m' := by
  have hread (i : Nat) (hi : i ∉ vars) : Model.assignment m' i = Model.assignment m i := by
    rw [Model.Tabular.assignment_eq, Model.Tabular.assignment_eq, h.assigned]
    unfold fetch
    rw [hothers i hi, hlength]
  refine ⟨hread, fun i => ?_⟩
  by_cases hi : i ∈ vars
  · obtain ⟨⟨x, hx⟩, y, hy⟩ := hvars i hi
    rw [Model.Tabular.assignment_eq, Model.Tabular.assignment_eq, h.assigned, fetch_eq_ok_iff,
      fetch_eq_ok_iff, hx, hy]
    simp
  · rw [hread i hi]

/-- Another value for a variable that has one. -/
theorem Model.touches_of_becomes_set {v : Nat} {x y : V}
    (h : Model.Becomes m ((assigned m).set v (some x)) m')
    (hy : Model.assignment m v = .ok (some y)) : Model.Touches [v] m m' := by
  rw [Model.Tabular.assignment_eq, fetch_eq_ok_iff] at hy
  obtain ⟨hlt, -⟩ := List.getElem?_eq_some_iff.1 hy
  refine Model.touches_of_becomes h List.length_set (fun i hi => ?_) fun i hi => ?_
  · exact List.getElem?_set_ne fun hvi => hi (List.mem_singleton.2 hvi.symm)
  · cases List.mem_singleton.1 hi
    exact ⟨⟨x, List.getElem?_set_self hlt⟩, y, hy⟩

/-- On a model that serves and has no clash the candidates of the generators are confined. -/
theorem BasicGenerator.Seeks.confined {X : Type} [Scalar α] {J : M → Prop} {D : Nat → V → Prop}
    (hJ : Model.Serves J D) (hm : J m) (hsound : Model.Sound m)
    (hcount : Model.variableCount m = (assigned m).length)
    (hdomain : ∀ v values x, Model.values m v = .ok values → x ∈ values → D v x)
    (hexchange : ∀ a b x y delta, Model.swapDelta m a b = .ok (some delta) →
      (assigned m)[a]? = some (some x) → (assigned m)[b]? = some (some y) → D a y ∧ D b x)
    {g : BasicGenerator X} {c : Candidate V α} (hc : g.Seeks m c) : c.Confined m := by
  cases hc with
  | @change _ v x delta htake hdelta hmode =>
    obtain ⟨current, values, hassigned, hvalues, -, hx, -⟩ := htake.other
    obtain ⟨m', hassign, -⟩ := hJ.assign hm (hcount ▸ htake.lt) (hdomain v values x hvalues hx)
    have hbecomes := Model.becomes_of_assign_of_conflicts hassign htake.free
    exact ⟨m', Model.put_of_ok hassign, Model.touches_of_becomes_set hbecomes hassigned⟩
  | @swap _ a b s ha hb hswap hmode =>
    obtain ⟨rfl, rfl, hab, -, -, hdelta⟩ := SwapMove.of?_eq_some hswap
    have hreturns := s.commit_returns hJ ⟨hm, rfl⟩ (hcount ▸ ha) (hcount ▸ hb)
      fun x y hx hy => hexchange _ _ x y s.delta hdelta hx hy
    have hexchanges := s.commit_becomes hswap
    obtain ⟨_, m', hrun, -, x, y, hx, hy, hbecomes⟩ := ((hreturns.and hexchanges).mono
      (fun _ h => h) (fun _ _ h => h) fun _ h => h.1).exists_ok rfl
    obtain ⟨hlta, -⟩ := List.getElem?_eq_some_iff.1 hx
    obtain ⟨hltb, -⟩ := List.getElem?_eq_some_iff.1 hy
    refine ⟨m', hrun, Model.touches_of_becomes hbecomes (by simp) (fun i hi => ?_) fun i hi => ?_⟩
    · simp only [List.mem_cons, List.not_mem_nil, or_false, not_or] at hi
      rw [List.getElem?_set_ne (Ne.symm hi.2), List.getElem?_set_ne (Ne.symm hi.1)]
    · rcases List.mem_pair.1 hi with rfl | rfl
      · rw [List.getElem?_set_ne hab.symm, List.getElem?_set_self hlta]
        exact ⟨⟨y, rfl⟩, x, hx⟩
      · rw [List.getElem?_set_self (by simpa using hltb)]
        exact ⟨⟨x, rfl⟩, y, hy⟩
  | @lazyChange v x htake =>
    intro accept
    obtain ⟨current, values, hassigned, hvalues, -, hx, -⟩ := htake.other
    have hready : ∀ m', m' = m → Model.Ready J (assigned m).length m' :=
      fun m' h => by rw [h]; exact ⟨hm, rfl⟩
    have hreturns := (LazyChange.commit_returns hJ (c := ⟨v, x⟩) (hcount ▸ htake.lt)
      (hdomain v values x hvalues hx) accept).mono_pre hready
    have hbecomes := LazyChange.commit_becomes hsound ⟨v, x⟩ accept
    obtain ⟨r, m', hrun, -, hend⟩ := ((hreturns.and hbecomes).mono (fun _ h => h) (fun _ _ h => h)
      fun _ h => h.1).exists_ok rfl
    refine ⟨r, m', hrun, ?_⟩
    cases r with
    | applied _ =>
      exact Model.touches_of_becomes_set (Model.becomes_of_assign_of_conflicts hend htake.free)
        hassigned
    | rejected _ =>
      rw [Model.Tabular.assignment_eq, fetch_eq_ok_iff] at hassigned
      refine Model.touches_of_becomes hend rfl (fun _ _ => rfl) fun i hi => ?_
      cases List.mem_singleton.1 hi
      exact ⟨⟨current, hassigned⟩, current, hassigned⟩

end

/-! ## The generators on the two models -/

namespace BasicGenerator

/-- On a model that answers, a basic generator comes to an end with what it finds. -/
theorem exists_propose [Scalar α] {g : BasicGenerator Empty} (random : Random.Stream)
    (hanswers : Model.Answers m) (hprices : g ≠ .lazyChange → Model.Prices m) :
    ∃ (c? : Option (Candidate V α)) (random' : Random.Stream),
      MoveGenerator.propose m (g, random) = .ok c? (g, random') ∧
      (c? = none ↔ ∀ c, ¬ g.Seeks m c) ∧ ∀ c, c? = some c → g.Seeks m c := by
  have hfinds := propose_finds (A := True) (fun x : Empty => x.elim) random (fun _ => hanswers)
    fun _ => hprices
  obtain ⟨c?, ⟨_, random'⟩, hrun, rfl, hfound⟩ :=
    (hfinds.mono (fun _ h => h) (fun _ _ h => h) fun _ h => h.2 trivial).exists_ok rfl
  exact ⟨c?, random', hrun, found_iff.1 hfound⟩

/-- A basic generator proposes nothing only if there is no candidate that it seeks, and what it
proposes is such a candidate. On a model without conflicts committing it touches no other variables.
On independent penalties there have to be effects to compare, and so the options have to be options
of their rows. -/
theorem propose_exact {α : Type} [Scalar α] (g : BasicGenerator Empty) (random : Random.Stream) :
    (∀ p : Penalty α, p.assigned.length = p.table.length →
      (g ≠ .lazyChange → ∀ i o, p.assigned[i]? = some (some o) → Penalty.Has p.table i o) →
      ∃ (c? : Option (Candidate Nat α)) (random' : Random.Stream),
        MoveGenerator.propose p (g, random) = .ok c? (g, random') ∧
        (c? = none ↔ ∀ c, ¬ g.Seeks p c) ∧ ∀ c, c? = some c → g.Seeks p c ∧
          ((∀ i o, p.assigned[i]? = some (some o) → Penalty.Has p.table i o) → c.Confined p)) ∧
    ∀ t : Timetable α, t.assigned.length = t.events.length →
      ∃ (c? : Option (Candidate (Placement α) α)) (random' : Random.Stream),
        MoveGenerator.propose t (g, random) = .ok c? (g, random') ∧
        (c? = none ↔ ∀ c, ¬ g.Seeks t c) ∧ ∀ c, c? = some c → g.Seeks t c ∧
          (t.hasHardConflicts = .ok false → c.Confined t) := by
  constructor
  · intro p hlength hhas
    obtain ⟨c?, random', hrun, hnone, hsome⟩ := exists_propose (g := g) random
      (Penalty.answers hlength) fun hg => Penalty.Filled.prices ⟨rfl, hlength, hhas hg⟩
    refine ⟨c?, random', hrun, hnone, fun c hc => ⟨hsome c hc, fun hhas => ?_⟩⟩
    refine (hsome c hc).confined (Penalty.serves_filled p.table) ⟨rfl, hlength, hhas⟩
      (p.clashFree p.assigned) rfl (fun _ _ _ hvalues hx => Penalty.has_of_mem_values hvalues hx) ?_
    intro a b x y delta hdelta hx hy
    obtain ⟨_, _, _, _, _, _, _, _, hexchange⟩ := Penalty.exchange_of_swapDelta hdelta
    cases hexchange.assignedA.symm.trans hx
    cases hexchange.assignedB.symm.trans hy
    exact hexchange.has
  · intro t hlength
    have hsized : Timetable.Sized t := hlength
    obtain ⟨c?, random', hrun, hnone, hsome⟩ := exists_propose (g := g) random hsized.answers
      fun _ => hsized.prices
    refine ⟨c?, random', hrun, hnone, fun c hc => ⟨hsome c hc, fun hhard => ?_⟩⟩
    exact (hsome c hc).confined Timetable.serves_sized hsized
      (Timetable.clashFree_of_hasHardConflicts hhard) hlength.symm (fun _ _ _ _ _ => trivial)
      fun _ _ _ _ _ _ _ _ => ⟨trivial, trivial⟩

/-- Of two variables one can be improved. Of two events in a row one can be moved away. -/
theorem propose_exact_improving :
    let g : BasicGenerator Empty := .change true
    let random := Random.Stream.standard 0
    let p : Penalty ℚ := ⟨[[1, 4], [5, 2]], [some 0, some 0], none, 0⟩
    let t : Timetable ℚ := ⟨[⟨"A", 0, [⟨0, 0, 1⟩]⟩, ⟨"B", 0, [⟨1, 0, 2⟩, ⟨5, 0, 1⟩]⟩],
      [some ⟨0, 0, 1⟩, some ⟨1, 0, 2⟩], none⟩
    (∃ (c : Candidate Nat ℚ) (random' : Random.Stream),
      MoveGenerator.propose p (g, random) = .ok (some c) (g, random') ∧ g.Seeks p c ∧
        c.Confined p) ∧
    ∃ (c : Candidate (Placement ℚ) ℚ) (random' : Random.Stream),
      MoveGenerator.propose t (g, random) = .ok (some c) (g, random') ∧ g.Seeks t c ∧
        c.Confined t := by
  intro g random p t
  constructor
  · have hhas : ∀ i o, p.assigned[i]? = some (some o) → Penalty.Has p.table i o := by
      intro i o hi
      match i, hi with
      | 0, hi => cases hi; exact ⟨_, rfl, by decide⟩
      | 1, hi => cases hi; exact ⟨_, rfl, by decide⟩
    have hseeks : g.Seeks p (.eager (.change ⟨1, some 1, -3⟩)) :=
      .change ⟨by decide, ⟨0, [0, 1], rfl, rfl, by decide, by decide, rfl⟩, rfl⟩ (by decide +kernel)
        (by decide +kernel)
    obtain ⟨c?, random', hrun, hnone, hsome⟩ := (propose_exact g random).1 p rfl fun _ => hhas
    cases c? with
    | none => exact (hnone.1 rfl _ hseeks).elim
    | some c => exact ⟨c, random', hrun, (hsome c rfl).1, (hsome c rfl).2 hhas⟩
  · have hseeks : g.Seeks t (.eager (.change ⟨1, some ⟨5, 0, 1⟩, -2⟩)) :=
      .change ⟨by decide, ⟨⟨1, 0, 2⟩, _, rfl, rfl, by decide, .tail _ (.head _), by decide +kernel⟩,
        by decide +kernel⟩ (by decide +kernel) (by decide +kernel)
    have hhard : t.hasHardConflicts = .ok false := by decide +kernel
    obtain ⟨c?, random', hrun, hnone, hsome⟩ := (propose_exact g random).2 t rfl
    cases c? with
    | none => exact (hnone.1 rfl _ hseeks).elim
    | some c => exact ⟨c, random', hrun, (hsome c rfl).1, (hsome c rfl).2 hhard⟩

/-- If the current option is not one of its row, no value has an effect, and a generator that
compares effects does not come to an end. -/
theorem propose_unpriced :
    let g : BasicGenerator Empty := .change true
    let random := Random.Stream.standard 0
    let p : Penalty ℚ := ⟨[[1, 4]], [some 7], none, 0⟩
    Penalty.ofAssigned [[1, 4]] [some 7] = .ok p ∧ (∀ c, ¬ g.Seeks p c) ∧
      ∃ e s, (MoveGenerator.propose p (g, random) : EStateM.Result Failure _
        (Option (Candidate Nat ℚ))) = .error e s := by
  intro g random p
  have hunpriced (v x : Nat) (hv : v < 1) (delta : ℚ) : Model.delta p v x ≠ .ok delta := by
    intro hdelta
    obtain ⟨current, hcurrent⟩ := Penalty.exists_current_of_delta hdelta
    obtain rfl : v = 0 := by omega
    cases hcurrent
  have hnone (c : Candidate Nat ℚ) : ¬ (BasicGenerator.change (X := Empty) true).Seeks p c := by
    intro hc
    cases hc with
    | change htake hdelta hmode => exact hunpriced _ _ htake.lt _ hdelta
  refine ⟨rfl, hnone, ?_⟩
  have hrun : Ensures (· = (g, random))
      (MoveGenerator.propose p : Attempt _ (Option (Candidate Nat ℚ)))
      (fun _ _ => False) fun _ => True := by
    show Ensures _ (BasicGenerator.propose p) _ _
    unfold BasicGenerator.propose
    refine ensures_get_bind_at (ensures_focus fun _ _ => Ensures.mono_pre (P := fun _ => True) ?_
      fun _ _ => trivial)
    unfold changes fromRandomVariable
    dsimp only
    refine (draw_ensures 1).bind fun start => ?_
    show Ensures _ (scanVariables p _ [0]) _ _
    unfold scanVariables
    refine ensures_lift_bind_of_ok (a := some 7) rfl ?_
    refine ensures_lift_bind_of_ok (a := [0, 1]) rfl ?_
    refine (draw_ensures 2).bind fun offset => ?_
    refine ensures_lift_bind (fun _ h => h) fun found? hfound => ?_
    -- whatever the search is said to have found, it has looked at one of the two options
    cases found? with
    | none =>
      have hzero := of_findSomeM?_eq_ok_none hfound (mem_rotateLeft.2 List.mem_cons_self)
      cases hzero
    | some c =>
      obtain ⟨x, hx, hsuit⟩ := exists_of_findSomeM?_eq_ok hfound
      rcases List.mem_pair.1 (mem_rotateLeft.1 hx) with rfl | rfl
      · cases hsuit
      · cases hsuit
  cases h : (MoveGenerator.propose p (g, random) : EStateM.Result Failure _
      (Option (Candidate Nat ℚ))) with
  | ok c? s => exact (hrun.of_ok rfl h).elim
  | error e s => exact ⟨e, s, rfl⟩

end BasicGenerator

end LocalSearch
