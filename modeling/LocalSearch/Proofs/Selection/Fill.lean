import LocalSearch.Proofs.Model.Optimum
import LocalSearch.Proofs.Selection.Choice
import LocalSearch.Proofs.Selection.Prepare
/-!
# Construction on independent penalties

As long as a variable is without an option, construction gives one such variable an option of the
least penalty of its row, whatever the random stream. No draw is out of range, nothing is tabu for a
variable without an option, and the weight of conflicts does not matter because there are none.

* `Construction.Picks.cheapest`: a choice of least score is an option of least penalty.
* `Construction.select_cheapest`, `Construction.select_fills`: a call of construction. It does not
  fail.
* `AnyStrategy.Filling`: a strategy that is busy with construction; an orchestrator has then seen
  more unassigned variables than there are now.
* `AnyStrategy.select_fills`: it passes on what construction offers, and stays busy.
-/

namespace LocalSearch

open Act

/-! ## A call of construction -/

namespace Construction

variable {K : Type} [Field K] [LinearOrder K] [Scalar.Functions K] {table : List (List K)}
  {c : Construction K} {p p' : Penalty K} {v option : Nat}

/-- Construction prefers lower penalties, and no choice is tabu for a variable without an option. -/
structure Free (c : Construction K) (a : Table Nat) : Prop where
  weight_pos : 0 < c.config.valueWeight
  free : ∀ choice ∈ c.tabu, a[choice.1]? ≠ some none

omit [Field K] [LinearOrder K] [Scalar.Functions K] in
theorem Admissible.of_free {a : Table Nat} (hfree : ∀ choice ∈ c.tabu, a[choice.1]? ≠ some none)
    (hopen : a[v]? = some none) (count index : Nat) : c.Admissible v count index :=
  .inl fun hmem => hfree _ hmem hopen

/-- What an option of a variable without one adds is its penalty, and nothing conflicts with it. -/
theorem Rates.penalty {row : List K} {delta score : K} (h : c.Rates p v option delta score)
    (hrow : p.table[v]? = some row) (hopen : Model.assignment p v = .ok none) :
    row[option]? = some delta ∧ score = delta * c.config.valueWeight := by
  obtain ⟨row', hrow', hdelta⟩ := bind_eq_ok_iff.1 h.delta_eq
  cases hrow.symm.trans (fetch_eq_ok_iff.1 hrow')
  obtain ⟨after, hafter, hdelta⟩ := bind_eq_ok_iff.1 hdelta
  obtain ⟨current, hcurrent, hdelta⟩ := bind_eq_ok_iff.1 hdelta
  cases hcurrent.symm.trans (Penalty.current_of_unassigned hopen)
  obtain ⟨out, hout, rfl⟩ := h.score_eq
  cases hout
  cases hdelta
  rw [Scalar.zero_eq, sub_zero]
  exact ⟨fetch_eq_ok_iff.1 hafter, by simp⟩

/-- With nothing tabu, a choice of least score is an option of least penalty. -/
theorem Picks.cheapest [IsStrictOrderedRing K] {q : Proposal Nat K} (h : c.Picks p v option q)
    (hweight : 0 < c.config.valueWeight)
    (hadmissible : ∀ count other, c.Admissible v count other) :
    ∃ delta, q = .move (.change ⟨v, some option, delta⟩) ∧ Penalty.Cheapest p.table v option := by
  obtain ⟨hopen, hvalues, hvalue, -, hrates, hleast⟩ := h
  rename_i x delta score
  obtain ⟨row, hrow, hvalues⟩ := bind_eq_ok_iff.1 hvalues
  replace hrow := fetch_eq_ok_iff.1 hrow
  cases hvalues
  -- an option is its own index
  obtain rfl : option = x := by
    obtain ⟨_, hget⟩ := List.getElem?_eq_some_iff.1 hvalue
    simpa using hget
  obtain ⟨hpenalty, rfl⟩ := hrates.penalty hrow hopen.unassigned
  refine ⟨delta, rfl, row, delta, hrow, hpenalty, fun other hother => ?_⟩
  obtain ⟨i, hi⟩ := List.getElem?_of_mem hother
  have hlt := (List.getElem?_eq_some_iff.1 hi).1
  obtain ⟨delta', score', hrates', hle⟩ := hleast i i (by simp [hlt]) (hadmissible _ _)
  obtain ⟨hpenalty', rfl⟩ := hrates'.penalty hrow hopen.unassigned
  cases hi.symm.trans hpenalty'
  exact le_of_mul_le_mul_right hle hweight

omit [Field K] [LinearOrder K] [Scalar.Functions K] in
theorem mem_of_mem_remember {choice choice' : Nat × Nat}
    (h : choice' ∈ (c.remember choice).tabu) : choice' ∈ c.tabu ∨ choice' = choice := by
  unfold remember at h
  split at h
  · exact .inl h
  split at h
  · exact (List.mem_append.1 h).imp List.mem_of_mem_drop List.mem_singleton.1
  · exact (List.mem_append.1 h).imp_right List.mem_singleton.1

/-- The variable of a new choice gets its option, so it is not one without an option any more. -/
theorem Free.remember (h : c.Free p.assigned) (hassign : Model.assign p v option = .ok p') :
    (c.remember (v, option)).Free p'.assigned := by
  obtain ⟨_, hstore, hp⟩ := bind_eq_ok_iff.1 hassign
  obtain ⟨hlt, rfl⟩ := store_eq_ok_iff.1 hstore
  cases hp
  refine ⟨?_, fun choice hchoice => ?_⟩
  · rw [config_remember]
    exact h.weight_pos
  · by_cases hv : v = choice.1
    · subst hv
      simp [hlt]
    · rw [List.getElem?_set_ne hv]
      rcases mem_of_mem_remember hchoice with hmem | rfl
      · exact h.free choice hmem
      · exact absurd rfl hv

/-- An offer of construction that gives a variable an option of the least penalty of its row. -/
structure Fills (table : List (List K)) (p : Penalty K) (v option : Nat) (q : Proposal Nat K) :
    Prop where
  offers : Offers p q
  gives : ∃ delta, q = .move (.change ⟨v, some option, delta⟩)
  cheapest : Penalty.Cheapest table v option

theorem Fills.open {q : Proposal Nat K} (h : Fills table p v option q) :
    p.assigned[v]? = some none := by
  obtain ⟨delta, rfl⟩ := h.gives
  cases h.offers with
  | fill hopen => exact fetch_eq_ok_iff.1 hopen

/-- The variable was without an option, and afterwards one variable less is. -/
theorem Fills.unassignedCount_succ {q : Proposal Nat K} (h : Fills table p v option q)
    (hassign : Model.assign p v option = .ok p') :
    Model.unassignedCount p' + 1 = Model.unassignedCount p := by
  obtain ⟨_, hstore, hp⟩ := bind_eq_ok_iff.1 hassign
  obtain ⟨-, rfl⟩ := store_eq_ok_iff.1 hstore
  cases hp
  exact Table.openCount_set_none h.open

/-- A call of construction picks a variable without an option, as long as there is one, and an option
of least penalty for it. It does not fail, and leaves the solution alone. -/
theorem select_cheapest [IsStrictOrderedRing K] {s : Solution (Penalty K) K}
    (hfilled : s.model.Filled table) (hrows : [] ∉ table)
    (hopen : Model.unassignedCount s.model ≠ 0) (hfree : c.Free s.model.assigned) :
    Leads (At c s) (select : Act (Construction K) (Penalty K) K (Option (Proposal Nat K)))
      (fun q? c' s' => s' = s ∧ ∃ v option delta,
        q? = some (.move (.change ⟨v, some option, delta⟩)) ∧ Penalty.Cheapest table v option ∧
        c' = c.remember (v, option))
      (fun _ _ => False) := by
  have hm : Model.Constructible s.model :=
    Penalty.constructible (hfilled.table_eq ▸ hfilled.length_assigned)
  refine (select_picks c s).mono (fun _ _ h => h) (fun q? c' s' h => ?_) fun _ _ h => h.2 hm
  obtain ⟨rfl, houtcome⟩ := h
  refine ⟨rfl, ?_⟩
  cases houtcome with
  | done hdone =>
    obtain ⟨u, hu⟩ := Table.exists_open hopen
    have hlt : u < s'.model.assigned.length := (List.getElem?_eq_some_iff.1 hu).1
    obtain ⟨row, hrow, hne⟩ := hfilled.exists_row hrows hlt
    refine absurd hdone (Model.Open.not_constructed
      ⟨hlt, fetch_eq_ok_iff.2 hu, List.range row.length, ?_, by simpa using hne⟩)
    exact bind_eq_ok_iff.2 ⟨row, fetch_eq_ok_iff.2 (hfilled.table_eq ▸ hrow), rfl⟩
  | @choice v index q hpicks =>
    have hunassigned : s'.model.assigned[v]? = some none := by
      cases hpicks with
      | pick hopen => exact fetch_eq_ok_iff.1 hopen.unassigned
    obtain ⟨delta, rfl, hcheapest⟩ := hpicks.cheapest hfree.weight_pos
      (Admissible.of_free hfree.free hunassigned)
    exact ⟨v, index, delta, rfl, hfilled.table_eq ▸ hcheapest, rfl⟩

/-- What it picks is an offer of construction. -/
theorem select_fills [IsStrictOrderedRing K] {s : Solution (Penalty K) K}
    (hfilled : s.model.Filled table) (hrows : [] ∉ table)
    (hopen : Model.unassignedCount s.model ≠ 0) (hfree : c.Free s.model.assigned) :
    Leads (At c s) (select : Act (Construction K) (Penalty K) K (Option (Proposal Nat K)))
      (fun q? c' s' => s' = s ∧ ∃ v option q, q? = some q ∧ Fills table s.model v option q ∧
        c' = c.remember (v, option)) (fun _ _ => False) := by
  have hoffers : Leads (At c s)
      (select : Act (Construction K) (Penalty K) K (Option (Proposal Nat K)))
      (fun q? _ s' => ∀ q, q? = some q → Offers s'.model q) (fun _ _ => True) :=
    (selects (I := fun _ => True)).leads.mono (fun _ _ _ => trivial) (fun _ _ _ h => h.2)
      fun _ _ _ => trivial
  have hcheapest := select_cheapest hfilled hrows hopen hfree
  refine (hcheapest.and hoffers).mono (fun _ _ h => h) ?_ fun _ _ h => h.1
  rintro q? c' s' ⟨⟨hs, v, option, delta, hq, hcheapest, hc⟩, hoffers⟩
  refine ⟨hs, v, option, _, hq, ⟨?_, ⟨delta, rfl⟩, hcheapest⟩, hc⟩
  exact hs ▸ hoffers _ hq

/-- The same call as a part of another strategy. -/
theorem within_fills [IsStrictOrderedRing K] {T : Type} {view : T → Construction K}
    {put : T → Construction K → T} {t : T} {s : Solution (Penalty K) K}
    (hfilled : s.model.Filled table) (hrows : [] ∉ table)
    (hopen : Model.unassignedCount s.model ≠ 0) (hfree : (view t).Free s.model.assigned) :
    Leads (At t s) (Act.within view put select : Act T (Penalty K) K (Option (Proposal Nat K)))
      (fun q? t' s' => s' = s ∧ ∃ v option q, q? = some q ∧ Fills table s.model v option q ∧
        t' = put t ((view t).remember (v, option))) (fun _ _ => False) := by
  refine leads_within fun _ _ h => ?_
  obtain ⟨rfl, rfl⟩ := h
  refine (select_fills hfilled hrows hopen hfree).mono_post ?_
  rintro _ _ _ ⟨hs, v, option, q, hq, hfills, rfl⟩
  exact ⟨hs, v, option, q, hq, hfills, rfl⟩

end Construction

/-! ## Strategies that are busy with construction -/

variable {K : Type} [Field K] [LinearOrder K] [Scalar.Functions K] {table : List (List K)}
  {s : Solution (Penalty K) K} {config : ConstructionConfig K}

/-- An orchestrator in its first construction phase, in which every call so far left more variables
unassigned than there are now. -/
structure Orchestrator.Filling {S : Type} (o : Orchestrator S K) (unassigned : Nat) : Prop where
  rotates : o.Rotates
  phase_eq : o.phase = .construction
  restarts_eq : o.restarts = 0
  lt_of_last : ∀ last, o.lastUnassigned = some last → unassigned < last

omit [Field K] [LinearOrder K] [Scalar.Functions K] in
/-- It is not stuck, and the next call should leave fewer variables unassigned. -/
theorem Orchestrator.Filling.observe {S : Type} {o : Orchestrator S K} {n : Nat}
    (h : o.Filling n) (construction : Construction K) :
    ∃ o', Orchestrator.observe { o with construction } n = (o', false) ∧
      o'.construction = construction ∧ ∀ n' < n, o'.Filling n' := by
  have hnext (stalled : Nat) : ∀ n' < n, Orchestrator.Filling
      { o with construction, lastUnassigned := some n, stalled } n' := fun n' hlt =>
    ⟨h.rotates, h.phase_eq, h.restarts_eq, fun last hlast => by cases hlast; exact hlt⟩
  unfold Orchestrator.observe
  cases hlast : o.lastUnassigned with
  | none => exact ⟨_, rfl, rfl, hnext 0⟩
  | some last =>
    dsimp only
    rw [if_neg (Nat.not_le_of_lt (h.lt_of_last last hlast))]
    exact ⟨_, rfl, rfl, hnext 0⟩

/-- A call that leaves the solution alone and proposes to fill a variable; the orchestrator goes on
with construction once fewer variables are unassigned. -/
def Orchestrator.Fills {S : Type} (table : List (List K)) (o : Orchestrator S K)
    (s : Solution (Penalty K) K) (q? : Option (Proposal Nat K)) (o' : Orchestrator S K)
    (s' : Solution (Penalty K) K) : Prop :=
  s' = s ∧ ∃ v option q, q? = some q ∧ Construction.Fills table s.model v option q ∧
    o'.construction = o.construction.remember (v, option) ∧
    ∀ n < Model.unassignedCount s.model, o'.Filling n

section

variable [IsStrictOrderedRing K] {S : Type} [Strategy S (Penalty K) Nat K] {o : Orchestrator S K}

/-- The first step passes on what construction offers. -/
theorem Orchestrator.phaseStep_fills (hfilled : s.model.Filled table) (hrows : [] ∉ table)
    (hopen : Model.unassignedCount s.model ≠ 0) (hfree : o.construction.Free s.model.assigned)
    (ho : o.Filling (Model.unassignedCount s.model)) (exhausted : Nat) :
    Leads (At o s) (phaseStep exhausted : Act (Orchestrator S K) (Penalty K) K _)
      (fun answer o' s' => ∃ q?, answer = .ok q? ∧ o.Fills table s q? o' s') (fun _ _ => False) := by
  unfold phaseStep
  refine leads_part_bind_at ?_
  rw [ho.phase_eq]
  dsimp only
  refine Leads.bind (Construction.within_fills hfilled hrows hopen hfree) fun q? => ?_
  refine leads_get_bind fun o' w h => ?_
  obtain ⟨hs, v, option, q, rfl, hfills, rfl⟩ := h
  -- construction is not stuck, so its offer counts
  obtain ⟨o', hobserve, hconstruction, hnext⟩ := ho.observe (o.construction.remember (v, option))
  rw [hs]
  dsimp only
  rw [hobserve]
  refine Leads.bind (Q := fun _ => At o' s) (leads_set fun _ _ _ => ⟨rfl, hs⟩) fun _ => ?_
  refine leads_pure ?_
  rintro _ _ ⟨rfl, rfl⟩
  exact ⟨_, rfl, rfl, v, option, q, rfl, hfills, hconstruction, hnext⟩

theorem Orchestrator.select_fills (hfilled : s.model.Filled table) (hrows : [] ∉ table)
    (hopen : Model.unassignedCount s.model ≠ 0) (hfree : o.construction.Free s.model.assigned)
    (ho : o.Filling (Model.unassignedCount s.model)) :
    Leads (At o s) (select : Act (Orchestrator S K) (Penalty K) K (Option (Proposal Nat K)))
      (o.Fills table s) (fun _ _ => False) := by
  unfold select
  refine leads_part_bind_at ?_
  have hsteps : o.stepLimit ≠ 0 := Nat.ne_of_gt (Nat.mul_pos (Nat.succ_pos _) (Nat.succ_pos _))
  obtain ⟨fuel, hfuel⟩ := Nat.exists_eq_add_one_of_ne_zero hsteps
  rw [hfuel]
  unfold steps
  refine Leads.bind (phaseStep_fills hfilled hrows hopen hfree ho 0) fun answer => ?_
  refine leads_of_at fun o' s' h => ?_
  obtain ⟨q?, rfl, h⟩ := h
  refine leads_pure ?_
  rintro _ _ ⟨rfl, rfl⟩
  exact h

end

namespace AnyStrategy

variable {G : Type}

/-- The strategy is busy with construction. -/
def Filling (a : Table Nat) : AnyStrategy G K → Prop
  | basic (.group g) => g.constructed = false ∧ g.construction.Free a
  | orchestrator o => o.Filling a.openCount ∧ o.construction.Free a
  | basic _ => False

/-- A strategy begins a search by being busy with construction. -/
theorem filling_of_fresh {t : AnyStrategy G K} (ht : t.Fresh config)
    (hweight : 0 < config.valueWeight) (a : Table Nat) : t.Filling a := by
  cases t with
  | basic b =>
    cases b with
    | group g =>
      refine ⟨ht.2, ?_, ?_⟩
      · rw [ht.1]
        exact hweight
      · rw [ht.1]
        exact nofun
    | hillClimbing _ | greatDeluge _ | simulatedAnnealing _ | construction _ => exact ht.elim
  | orchestrator o =>
    obtain ⟨hrotates, hconfig, hfresh⟩ := ht
    refine ⟨⟨hrotates, hfresh.phase_eq, hfresh.restarts_eq, ?_⟩, ?_, ?_⟩
    · rw [hfresh.lastUnassigned_eq]
      exact nofun
    · rw [hconfig]
      exact hweight
    · rw [hfresh.tabu_eq]
      exact nofun

/-- It is ready to make other proposals when there is nothing left to construct. -/
theorem Filling.ready {a : Table Nat} {t : AnyStrategy G K} (ht : t.Filling a) : t.Ready := by
  cases t with
  | basic b => trivial
  | orchestrator o =>
    refine ⟨⟨ht.1.rotates, fun _ hlast => ?_⟩, ?_⟩
    · exact Nat.not_lt_zero _ (ht.1.lt_of_last 0 hlast)
    · rw [ht.1.phase_eq]
      decide

variable [MoveGenerator G (Penalty K) Nat K]

theorem filling_bestSaved {a : Table Nat} {t : AnyStrategy G K} (ht : t.Filling a) :
    (Strategy.bestSaved (Penalty K) t).Filling a := by
  cases t with
  | basic b =>
    cases b with
    | group g => exact ht
    | hillClimbing _ | greatDeluge _ | simulatedAnnealing _ | construction _ => exact ht.elim
  | orchestrator o =>
    refine ⟨⟨Orchestrator.Rotates.of_rotation ht.1.rotates ?_, ht.1.phase_eq, ht.1.restarts_eq,
      ht.1.lt_of_last⟩, ht.2⟩
    simp [Strategy.bestSaved, Orchestrator.rotation, Function.comp_def]

/-- A strategy that is busy with construction proposes to fill a variable, and is busy once more
when the variable has its option. -/
theorem select_fills [IsStrictOrderedRing K] {t : AnyStrategy G K} (hfilled : s.model.Filled table)
    (hrows : [] ∉ table) (hopen : Model.unassignedCount s.model ≠ 0)
    (ht : t.Filling s.model.assigned) :
    Leads (At t s) (Strategy.select : Act (AnyStrategy G K) (Penalty K) K (Option (Proposal Nat K)))
      (fun q? t' s' => s' = s ∧ ∃ v option q, q? = some q ∧
        Construction.Fills table s.model v option q ∧
        ∀ p', Model.assign s.model v option = .ok p' → t'.Filling p'.assigned)
      (fun _ _ => False) := by
  show Leads _ AnyStrategy.select _ _
  unfold AnyStrategy.select
  refine leads_part_bind_at ?_
  cases t with
  | basic b =>
    cases b with
    | group g =>
      refine leads_inside ?_
      show Leads (At _ s) BasicStrategy.select _ _
      unfold BasicStrategy.select
      refine leads_part_bind_at (leads_inside ?_)
      show Leads (At _ s) Group.select _ _
      unfold Group.select
      refine leads_part_bind_at ?_
      rw [if_neg (by simp [ht.1])]
      refine Leads.bind (Construction.within_fills hfilled hrows hopen ht.2) fun q? => ?_
      refine leads_of_at fun g' s' h => ?_
      obtain ⟨hs, v, option, q, rfl, hfills, rfl⟩ := h
      refine leads_pure ?_
      rintro _ _ ⟨rfl, rfl⟩
      exact ⟨hs, v, option, q, rfl, hfills, fun p' hassign => ⟨ht.1, ht.2.remember hassign⟩⟩
    | hillClimbing _ | greatDeluge _ | simulatedAnnealing _ | construction _ => exact ht.elim
  | orchestrator o =>
    refine leads_inside ?_
    refine (Orchestrator.select_fills hfilled hrows hopen ht.2 ht.1).mono_post ?_
    rintro q? o' _ ⟨hs, v, option, q, hq, hfills, hconstruction, hnext⟩
    refine ⟨hs, v, option, q, hq, hfills, fun p' hassign => ⟨hnext _ ?_, ?_⟩⟩
    · have hcount := hfills.unassignedCount_succ hassign
      exact Nat.lt_of_succ_le (Nat.le_of_eq hcount)
    · rw [hconstruction]
      exact ht.2.remember hassign

end AnyStrategy

end LocalSearch
