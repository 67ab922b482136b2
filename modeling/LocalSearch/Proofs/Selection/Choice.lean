import LocalSearch.Proofs.Model.Answers
import LocalSearch.Proofs.Selection.Construction
import LocalSearch.Proofs.Sequence.Draw
/-!
# The choice of construction

A call of construction goes once over the values of a variable and keeps those of least score, past
the ones that are tabu. In exact arithmetic every score is less than the infinite one that the pass
begins with, so what is left at the end is the best of what may be chosen.

* `Model.Constructible`: models that answer what construction asks. Those of the library do.
* `Construction.Admissible`, `Construction.Rates`: what may be chosen, and its score.
* `Construction.best_least`: what is left of a pass over the values.
* `Construction.Picks`, `Construction.select_picks`: a call.
* `Construction.Builds`: construction in a search, with its moves since it was prepared.
  `Construction.Builds.recalls`: the choices that are tabu are the last ones.
-/

namespace LocalSearch

open Act

/-! ## What construction asks of a model -/

section

variable {M V α : Type} [Model M V α] {m : M} {v : Nat}

/-- A model that says what values cost for the variables without one. -/
structure Model.Constructible (m : M) : Prop extends Model.Answers m where
  prices {v : Nat} : Model.assignment m v = .ok none → Model.PricesAt m v

/-- A variable without a value that has one to take. -/
structure Model.Open (m : M) (v : Nat) : Prop where
  lt : v < Model.variableCount m
  unassigned : Model.assignment m v = .ok none
  values : ∃ values, Model.values m v = .ok values ∧ values ≠ []

/-- Every variable that has a value to take has one. -/
def Model.Constructed (m : M) : Prop :=
  ∀ v < Model.variableCount m, ∀ values, Model.values m v = .ok values → values ≠ [] →
    ∃ x, Model.assignment m v = .ok (some x)

/-- As long as a variable is open, something is left to do. -/
theorem Model.Open.not_constructed (h : Model.Open m v) : ¬ Model.Constructed m := by
  intro hdone
  obtain ⟨values, hvalues, hne⟩ := h.values
  obtain ⟨x, hx⟩ := hdone v h.lt values hvalues hne
  cases h.unassigned.symm.trans hx

namespace Construction

theorem mem_openVariables {vs : List Nat} (h : openVariables m = .ok vs) :
    v ∈ vs ↔ Model.Open m v := by
  rw [mem_iff_of_filterM_eq_ok h, List.mem_range]
  constructor
  · rintro ⟨hlt, htest⟩
    obtain ⟨current?, hcurrent, htest⟩ := bind_eq_ok_iff.1 htest
    cases current? with
    | some current => cases htest
    | none =>
      obtain ⟨values, hvalues, htest⟩ := bind_eq_ok_iff.1 htest
      refine ⟨hlt, hcurrent, values, hvalues, ?_⟩
      rintro rfl
      cases htest
  · rintro ⟨hlt, hcurrent, values, hvalues, hne⟩
    refine ⟨hlt, bind_eq_ok_iff.2 ⟨none, hcurrent, bind_eq_ok_iff.2 ⟨values, hvalues, ?_⟩⟩⟩
    simp [hne]

/-- No variable is open if and only if everything is done. -/
theorem openVariables_eq_nil_iff {vs : List Nat} (h : openVariables m = .ok vs) :
    vs = [] ↔ Model.Constructed m := by
  constructor
  · rintro rfl v hv values hvalues hne
    obtain ⟨test, htest, -⟩ := of_filterM_eq_ok h
    obtain ⟨current?, hcurrent, -⟩ := bind_eq_ok_iff.1 (htest v (List.mem_range.2 hv))
    cases current? with
    | some x => exact ⟨x, hcurrent⟩
    | none => exact absurd ((mem_openVariables h).2 ⟨hv, hcurrent, values, hvalues, hne⟩) nofun
  · exact fun hdone => List.eq_nil_iff_forall_not_mem.2 fun v hv =>
      ((mem_openVariables h).1 hv).not_constructed hdone

theorem exists_openVariables (h : Model.Answers m) : ∃ vs, openVariables m = .ok vs := by
  have htest : ∀ v ∈ List.range (Model.variableCount m), ∃ b, (do
      if (← Model.assignment m v).isSome then return false
      return !(← Model.values m v).isEmpty : Except Fault Bool) = .ok b := by
    intro v hv
    obtain ⟨current?, hcurrent⟩ := h.assignment (List.mem_range.1 hv)
    obtain ⟨values, hvalues⟩ := h.values (List.mem_range.1 hv)
    cases current? with
    | some current => exact ⟨false, bind_eq_ok_iff.2 ⟨_, hcurrent, rfl⟩⟩
    | none => exact ⟨_, bind_eq_ok_iff.2 ⟨_, hcurrent, bind_eq_ok_iff.2 ⟨_, hvalues, rfl⟩⟩⟩
  choose! test htest using htest
  exact ⟨_, filterM_eq_ok htest⟩

end Construction

end

/-- The options of a variable without one have effects. -/
theorem Penalty.constructible {α : Type} [Scalar α] {p : Penalty α}
    (h : p.assigned.length = p.table.length) : Model.Constructible p where
  toAnswers := answers h
  prices hopen := pricesAt (current_of_unassigned hopen)

theorem Timetable.Sized.constructible {α : Type} [Scalar α] {t : Timetable α} (h : t.Sized) :
    Model.Constructible t where
  toAnswers := h.answers
  prices _ := h.prices.value _

namespace Construction

/-! ## A pass over the values -/

section

variable {α : Type} {c : Construction α} {v count index : Nat}

/-- A value that may be chosen for a variable with a number of values: it is not tabu, or all of
them are. -/
def Admissible (c : Construction α) (v count index : Nat) : Prop :=
  (v, index) ∉ c.tabu ∨ ∀ i < count, (v, i) ∈ c.tabu

theorem admitted_iff : c.admitted v count index = true ↔ c.Admissible v count index := by
  simp [admitted, Admissible, or_comm]

/-- Something may be chosen. -/
theorem exists_admissible (c : Construction α) (v : Nat) (h : 0 < count) :
    ∃ index < count, c.Admissible v count index := by
  by_cases hall : ∀ i < count, (v, i) ∈ c.tabu
  · exact ⟨0, h, .inr hall⟩
  · push Not at hall
    obtain ⟨i, hi, hfree⟩ := hall
    exact ⟨i, hi, .inl hfree⟩

end

variable {K M V : Type} [Field K] [LinearOrder K] [Scalar.Functions K] [Model M V K]
  {c : Construction K} {m : M} {v index : Nat} {values : List V} {x : V} {delta score : K}

/-- The score of a value for a variable, with its effect. -/
structure Rates (c : Construction K) (m : M) (v : Nat) (x : V) (delta score : K) : Prop where
  delta_eq : Model.delta m v x = .ok delta
  score_eq : ∃ out, Model.conflicts m v x = .ok out ∧
    score = out.length * c.config.conflictWeight + delta * c.config.valueWeight

section

variable {admitted : Nat → Bool} {done : List (V × Nat)} {best : Best K}

/-- What is left of a pass over some values: the admitted ones of least score. -/
def Least (c : Construction K) (m : M) (v : Nat) (admitted : Nat → Bool) (done : List (V × Nat)) :
    Best K → Prop
  | none => ∀ item ∈ done, admitted item.2 = false
  | some (score, choices) => choices ≠ [] ∧
    (∀ choice ∈ choices, ∃ x, (x, choice.1) ∈ done ∧ admitted choice.1 = true ∧
      c.Rates m v x choice.2 score) ∧
    ∀ item ∈ done, admitted item.2 = true →
      ∃ delta' score', c.Rates m v item.1 delta' score' ∧ score ≤ score'

/-- A value that is not admitted changes nothing. -/
theorem Least.skip (h : c.Least m v admitted done best) (hskip : admitted index = false) :
    c.Least m v admitted (done ++ [(x, index)]) best := by
  cases best with
  | none =>
    intro item hitem
    rcases List.mem_append.1 hitem with hitem | hitem
    · exact h item hitem
    · rw [List.mem_singleton.1 hitem]
      exact hskip
  | some found =>
    obtain ⟨hne, hchoices, hleast⟩ := h
    refine ⟨hne, fun choice hchoice => ?_, fun item hitem hadmitted => ?_⟩
    · obtain ⟨y, hy, hrest⟩ := hchoices choice hchoice
      exact ⟨y, List.mem_append_left _ hy, hrest⟩
    · rcases List.mem_append.1 hitem with hitem | hitem
      · exact hleast item hitem hadmitted
      · rw [List.mem_singleton.1 hitem, hskip] at hadmitted
        cases hadmitted

/-- An admitted value is better than all before it, as good as the best ones, or neither. -/
theorem Least.improve (h : c.Least m v admitted done best) (hadmitted : admitted index = true)
    (hrates : c.Rates m v x delta score) :
    c.Least m v admitted (done ++ [(x, index)]) (improveBest best score (index, delta)) := by
  have hlast : (x, index) ∈ done ++ [(x, index)] :=
    List.mem_append_right _ (List.mem_singleton_self _)
  have hbound {least : K} (hle : least ≤ score) (hbefore : ∀ item ∈ done, admitted item.2 = true →
      ∃ delta' score', c.Rates m v item.1 delta' score' ∧ least ≤ score') :
      ∀ item ∈ done ++ [(x, index)], admitted item.2 = true →
        ∃ delta' score', c.Rates m v item.1 delta' score' ∧ least ≤ score' := by
    intro item hitem hadmitted'
    rcases List.mem_append.1 hitem with hitem | hitem
    · exact hbefore item hitem hadmitted'
    · rw [List.mem_singleton.1 hitem]
      exact ⟨delta, score, hrates, hle⟩
  have halone (hbefore : ∀ item ∈ done, admitted item.2 = true →
      ∃ delta' score', c.Rates m v item.1 delta' score' ∧ score ≤ score') :
      c.Least m v admitted (done ++ [(x, index)]) (some (score, [(index, delta)])) := by
    refine ⟨List.cons_ne_nil _ _, fun choice hchoice => ?_, hbound le_rfl hbefore⟩
    rw [List.mem_singleton.1 hchoice]
    exact ⟨x, hlast, hadmitted, hrates⟩
  unfold improveBest
  cases best with
  | none =>
    rw [if_pos (by simp)]
    refine halone fun item hitem hadmitted' => ?_
    rw [h item hitem] at hadmitted'
    cases hadmitted'
  | some found =>
    obtain ⟨least, choices⟩ := found
    obtain ⟨hne, hchoices, hleast⟩ := h
    have hkept : ∀ choice ∈ choices, ∃ y, (y, choice.1) ∈ done ++ [(x, index)] ∧
        admitted choice.1 = true ∧ c.Rates m v y choice.2 least := by
      intro choice hchoice
      obtain ⟨y, hy, hrest⟩ := hchoices choice hchoice
      exact ⟨y, List.mem_append_left _ hy, hrest⟩
    dsimp only
    by_cases hlt : score < least
    · rw [if_pos hlt]
      refine halone fun item hitem hadmitted' => ?_
      obtain ⟨delta', score', hrates', hle⟩ := hleast item hitem hadmitted'
      exact ⟨delta', score', hrates', hlt.le.trans hle⟩
    · rw [if_neg hlt]
      have hle : least ≤ score := le_of_not_gt hlt
      split
      · rename_i hequal
        obtain rfl : score = least := of_decide_eq_true hequal
        refine ⟨by simp, fun choice hchoice => ?_, hbound hle hleast⟩
        rcases List.mem_append.1 hchoice with hchoice | hchoice
        · exact hkept choice hchoice
        · rw [List.mem_singleton.1 hchoice]
          exact ⟨x, hlast, hadmitted, hrates⟩
      · exact ⟨hne, hkept, hbound hle hleast⟩

/-- What a pass over all values leaves. -/
theorem best_least (h : c.best m v values admitted = .ok best) :
    c.Least m v admitted values.zipIdx best := by
  refine of_foldlM_done (P := c.Least m v admitted) ?_ (fun _ hitem => by cases hitem) h
  rintro done ⟨x, index⟩ best best' - hbest hstep
  dsimp only at hstep
  split at hstep
  · rename_i hskip
    cases hstep
    exact hbest.skip (by simpa using hskip)
  · rename_i hadmitted
    obtain ⟨out, hout, hstep⟩ := bind_eq_ok_iff.1 hstep
    obtain ⟨delta, hdelta, hstep⟩ := bind_eq_ok_iff.1 hstep
    cases hstep
    exact hbest.improve (by simpa using hadmitted) ⟨hdelta, out, hout, rfl⟩

/-- A pass over the values of a variable without one does not fail. -/
theorem exists_best (hm : Model.Constructible m) (hopen : Model.assignment m v = .ok none)
    (hvalues : Model.values m v = .ok values) (admitted : Nat → Bool) :
    ∃ best, c.best m v values admitted = .ok best := by
  unfold Construction.best
  refine (exists_foldlM_eq_ok (P := fun _ => True) (fun best (x, index) hitem _ => ?_)
    trivial).imp fun _ h => h.1
  have hx : x ∈ values := List.mem_of_getElem? (List.mem_zipIdx_iff_getElem?.1 hitem)
  obtain ⟨out, hout⟩ := hm.conflicts hvalues hx
  obtain ⟨delta, hdelta⟩ := hm.prices hopen values x hvalues hx
  dsimp only
  split
  · exact ⟨best, rfl, trivial⟩
  · exact ⟨_, bind_eq_ok_iff.2 ⟨out, hout, bind_eq_ok_iff.2 ⟨delta, hdelta, rfl⟩⟩, trivial⟩

end

/-! ## A call -/

section

variable {S M V α : Type} {P E : S → Solution M α → Prop}

/-- A draw is in range. -/
theorem drawBelow_leads {n : Nat} (hn : 0 < n) :
    Leads P (drawBelow n : Act S M α Nat) (fun i t s => P t s ∧ i < n) E :=
  leads_onWorld fun _ => Attempt.ensures_focus fun _ hw =>
    Attempt.ensures_modifyGet fun _ _ => ⟨hw, Random.Stream.belowPositive_lt hn _⟩

/-- A draw from a list gives one of its items. -/
theorem leads_pick {β γ : Type} {items : List β} {f : β → Act S M α γ}
    {Q : γ → S → Solution M α → Prop} (hne : items ≠ [])
    (h : ∀ b ∈ items, Leads P (f b) Q E) :
    Leads P (do f (← fetch items (← drawBelow items.length))) Q E :=
  Leads.bind (drawBelow_leads (List.length_pos_iff.2 hne)) fun i => leads_of_fact fun hi =>
    leads_lift_bind_of_ok (fetch_eq_ok_iff.2 (List.getElem?_eq_getElem hi))
      (h items[i] (List.getElem_mem hi))

end

/-- A move that gives an open variable the value with an index, which is one of the best that may be
chosen. Everything that may be chosen has a score. -/
inductive Picks (c : Construction K) (m : M) (v index : Nat) : Proposal V K → Prop
  | pick {values : List V} {x : V} {delta score : K} (hopen : Model.Open m v)
    (hvalues : Model.values m v = .ok values) (hvalue : values[index]? = some x)
    (hadmissible : c.Admissible v values.length index) (hrates : c.Rates m v x delta score)
    (hleast : ∀ other y, values[other]? = some y → c.Admissible v values.length other →
      ∃ delta' score', c.Rates m v y delta' score' ∧ score ≤ score') :
    Picks c m v index (.move (.change ⟨v, some x, delta⟩))

/-- What a call ends with: nothing if all is done, and otherwise the move of a choice that is
remembered. -/
inductive Outcome (c : Construction K) (m : M) :
    Option (Proposal V K) → Construction K → Prop
  | done (hdone : Model.Constructed m) : Outcome c m none c
  | choice {v index : Nat} {p : Proposal V K} (hpicks : c.Picks m v index p) :
    Outcome c m (some p) (c.remember (v, index))

/-- What a pass leaves may be picked. -/
theorem picks_of_least {choices : List (Nat × K)} {choice : Nat × K} (hopen : Model.Open m v)
    (hvalues : Model.values m v = .ok values)
    (hleast : c.Least m v (c.admitted v values.length) values.zipIdx (some (score, choices)))
    (hchoice : choice ∈ choices) :
    ∃ x, values[choice.1]? = some x ∧
      c.Picks m v choice.1 (.move (.change ⟨v, some x, choice.2⟩)) := by
  obtain ⟨-, hchoices, hleast⟩ := hleast
  obtain ⟨x, hx, hadmitted, hrates⟩ := hchoices choice hchoice
  have hvalue : values[choice.1]? = some x := List.mem_zipIdx_iff_getElem?.1 hx
  refine ⟨x, hvalue, .pick hopen hvalues hvalue (admitted_iff.1 hadmitted) hrates ?_⟩
  intro other y hy hadmissible
  exact hleast (y, other) (List.mem_zipIdx_iff_getElem?.2 hy) (admitted_iff.2 hadmissible)

/-- With a value to take, a pass leaves something. -/
theorem Least.ne_nil (hvalues : values ≠ []) {best : Best K}
    (h : c.Least m v (c.admitted v values.length) values.zipIdx best) :
    ∃ score choices, best = some (score, choices) ∧ choices ≠ [] := by
  cases best with
  | some found => exact ⟨found.1, found.2, rfl, h.1⟩
  | none =>
    obtain ⟨index, hlt, hadmissible⟩ := exists_admissible c v (List.length_pos_iff.2 hvalues)
    have hskip := h (values[index], index)
      (List.mem_zipIdx_iff_getElem?.2 (List.getElem?_eq_getElem hlt))
    rw [admitted_iff.2 hadmissible] at hskip
    cases hskip

/-- A call leaves the solution alone and offers nothing or what it picks. It fails only on a model
that does not answer. -/
theorem select_picks (c : Construction K) (s : Solution M K) :
    Leads (At c s) (select : Act (Construction K) M K (Option (Proposal V K)))
      (fun p? c' s' => s' = s ∧ c.Outcome s.model p? c')
      (fun c' s' => At c s c' s' ∧ ¬ Model.Constructible s.model) := by
  unfold select
  refine leads_solution_bind_at ?_
  have hstays {β : Type} {x : Except Fault β}
      (hx : Model.Constructible s.model → ∃ b, x = .ok b) (c' : Construction K) (s' : Solution M K)
      (hfails : ∀ b, x ≠ .ok b) (hat : At c s c' s') :
      At c s c' s' ∧ ¬ Model.Constructible s.model :=
    ⟨hat, fun hm => (hx hm).elim fun b hb => hfails b hb⟩
  refine leads_lift_bind_or (hstays fun hm => exists_openVariables hm.toAnswers) fun vs hvs => ?_
  split
  · rename_i hnil
    refine leads_pure fun c' s' ⟨hc, hs⟩ => ⟨hs, ?_⟩
    rw [hc]
    exact .done ((openVariables_eq_nil_iff hvs).1 (List.isEmpty_iff.1 hnil))
  rename_i hne
  -- the variable
  refine leads_pick (fun hnil => hne (List.isEmpty_iff.2 hnil)) fun v hv => ?_
  have hopen := (mem_openVariables hvs).1 hv
  obtain ⟨values, hvalues, hvaluesne⟩ := hopen.values
  refine leads_lift_bind_of_ok hvalues (leads_part_bind_at ?_)
  refine leads_lift_bind_or (hstays fun hm => exists_best hm hopen.unassigned hvalues _)
    fun best hbest => ?_
  have hleast := best_least hbest
  obtain ⟨score, choices, rfl, hchoices⟩ := hleast.ne_nil hvaluesne
  -- the value
  refine leads_pick hchoices fun choice hchoice => ?_
  obtain ⟨x, hvalue, hpicks⟩ := picks_of_least hopen hvalues hleast hchoice
  refine leads_lift_bind_of_ok (fetch_eq_ok_iff.2 hvalue) ?_
  refine Leads.bind (Q := fun _ => At (c.remember (v, choice.1)) s)
    (leads_change fun _ _ h => ⟨by rw [h.1], h.2⟩) fun _ => leads_report_bind fun _ => ?_
  exact leads_pure fun c' s' h => ⟨h.2, h.1 ▸ .choice hpicks⟩

/-! ## The choices that are tabu -/

section

variable {α : Type} {c : Construction α}

@[simp]
theorem config_remember (c : Construction α) (choice : Nat × Nat) :
    (c.remember choice).config = c.config := by
  unfold remember
  split
  · rfl
  split
  · rfl
  · rfl

/-- If the last choices are tabu, they are so with another choice. -/
theorem tabu_remember {choices : List (Nat × Nat)} (h : c.tabu = choices.rtake c.config.tabuSize)
    (choice : Nat × Nat) :
    (c.remember choice).tabu = (choices ++ [choice]).rtake c.config.tabuSize := by
  unfold remember
  cases hsize : c.config.tabuSize with
  | zero => rw [if_pos rfl, h, hsize, List.rtake_zero, List.rtake_zero]
  | succ n =>
    rw [if_neg (Nat.succ_ne_zero n), List.rtake_concat_succ]
    rw [hsize, List.rtake] at h
    have hlength : c.tabu.length = choices.length - (choices.length - (n + 1)) := by
      rw [h, List.length_drop]
    split
    · rename_i hfull
      have hmany : choices.length - (n + 1) + 1 = choices.length - n := by omega
      rw [h, List.drop_drop, hmany, List.rtake]
    · rename_i hroom
      have hall : choices.length - (n + 1) = choices.length - n := by omega
      rw [h, hall, List.rtake]

end

variable (M) in
/-- Construction in a search, with its moves since it was prepared and the models they were made
for. Each operation may meet any state of the world, and calls that fail count. -/
inductive Builds (config : ConstructionConfig K) :
    List (M × Proposal V K) → Construction K → Prop
  | start : Builds config [] (.of config)
  | init {moves : List (M × Proposal V K)} {c : Construction K} (w : World M K) :
    Builds config moves c →
      Builds config [] ((Strategy.init : Act (Construction K) M K Unit).after (c, w)).1
  | select {moves : List (M × Proposal V K)} {c : Construction K} (w : World M K)
    {p? : Option (Proposal V K)}
    (hanswer : ((Strategy.select : Act (Construction K) M K _).answer? (c, w)).join = p?) :
    Builds config moves c → Builds config (moves ++ p?.toList.map (w.solution.model, ·))
      ((Strategy.select : Act (Construction K) M K (Option (Proposal V K))).after (c, w)).1
  | bestSaved {moves : List (M × Proposal V K)} {c : Construction K} :
    Builds config moves c → Builds config moves (Strategy.bestSaved M c)
  | resetScores {moves : List (M × Proposal V K)} {c : Construction K} :
    Builds config moves c → Builds config moves (Strategy.resetScores M c)

/-- The move gives a variable of the model the value with an index. -/
def Names (m : M) (p : Proposal V K) (choice : Nat × Nat) : Prop :=
  ∃ values x delta, Model.values m choice.1 = .ok values ∧ values[choice.2]? = some x ∧
    p = .move (.change ⟨choice.1, some x, delta⟩)

/-- The choices of the last moves are tabu. -/
structure Recalls (config : ConstructionConfig K) (moves : List (M × Proposal V K))
    (c : Construction K) : Prop where
  config_eq : c.config = config
  tabu_eq : ∃ choices, List.Forall₂ (fun move choice => Names move.1 move.2 choice) moves choices ∧
    c.tabu = choices.rtake config.tabuSize

theorem Recalls.outcome {config : ConstructionConfig K} {moves : List (M × Proposal V K)}
    {p? : Option (Proposal V K)} {c' : Construction K} (h : Recalls config moves c)
    (houtcome : c.Outcome m p? c') :
    Recalls config (moves ++ p?.toList.map (m, ·)) c' := by
  cases houtcome with
  | done => exact (List.append_nil moves).symm ▸ h
  | @choice v index p hpicks =>
    obtain ⟨choices, hmoves, htabu⟩ := h.tabu_eq
    refine ⟨(config_remember c _).trans h.config_eq, choices ++ [(v, index)], ?_, ?_⟩
    · refine List.rel_append hmoves (.cons ?_ .nil)
      cases hpicks with
      | pick _ hvalues hvalue => exact ⟨_, _, _, hvalues, hvalue, rfl⟩
    · rw [← h.config_eq] at htabu ⊢
      exact tabu_remember htabu _

theorem Builds.recalls {config : ConstructionConfig K} {moves : List (M × Proposal V K)}
    (h : Builds M config moves c) : Recalls config moves c := by
  induction h with
  | start => exact ⟨rfl, [], .nil, (List.rtake_nil _).symm⟩
  | init w _ ih => exact ⟨ih.config_eq, [], .nil, (List.rtake_nil _).symm⟩
  | @select moves c w p? hanswer _ ih =>
    subst hanswer
    have hcall := (select_picks (V := V) c w.solution).run (t := (c, w)) ⟨rfl, rfl⟩
    cases hrun : (Strategy.select : Act (Construction K) M K (Option (Proposal V K))) (c, w) with
    | ok p? t =>
      have houtcome : c.Outcome w.solution.model p? t.1 := (hcall.of_ok rfl hrun).2
      rw [Attempt.after_of_ok hrun, Attempt.answer?, hrun]
      exact ih.outcome houtcome
    | error e t =>
      have hstays : t.1 = c := (hcall.of_error rfl hrun).1.1
      rw [Attempt.after_of_error hrun, Attempt.answer?, hrun, hstays]
      exact (List.append_nil moves).symm ▸ ih
  | bestSaved _ ih => exact ih
  | resetScores _ ih => exact ih

/-- In exact arithmetic a call offers nothing if and only if every variable that has a value to take
has one. Otherwise it offers one of the best values that may be chosen for one of the others, and
remembers the choice. The models of the library, with a table as long as the assignment, answer what
it asks, so that it does not fail on them. In any search the choices that are tabu are the last ones
since it was prepared, as many as there are or may be. -/
theorem choice_best :
    (∀ p : Penalty K, p.assigned.length = p.table.length → Model.Constructible p) ∧
    (∀ t : Timetable K, t.assigned.length = t.events.length → Model.Constructible t) ∧
    (∀ (c : Construction K) (w : World M K),
      Attempt.Ensures (· = (c, w))
        (Strategy.select : Act (Construction K) M K (Option (Proposal V K)))
        (fun p? t => t.2.solution = w.solution ∧
          (p? = none ↔ Model.Constructed w.solution.model) ∧
          (p? = none → t.1 = c) ∧
          ∀ p, p? = some p → ∃ v index, c.Picks w.solution.model v index p ∧
            t.1 = c.remember (v, index))
        (fun t => t.1 = c ∧ t.2.solution = w.solution ∧
          ¬ Model.Constructible w.solution.model)) ∧
    ∀ {config : ConstructionConfig K} {moves : List (M × Proposal V K)} {c : Construction K},
      Builds M config moves c → ∃ choices,
        List.Forall₂ (fun move choice => Names move.1 move.2 choice) moves choices ∧
          c.tabu = choices.rtake (min config.tabuSize moves.length) := by
  refine ⟨fun p h => Penalty.constructible h, fun t h => Timetable.Sized.constructible h,
    fun c w => ?_, fun hbuilds => ?_⟩
  · refine ((select_picks c w.solution).run (t := (c, w)) ⟨rfl, rfl⟩).mono (fun _ h => h)
      (fun p? t h => ?_) fun t h => ⟨h.1.1, h.1.2, h.2⟩
    obtain ⟨hsolution, houtcome⟩ := h
    refine ⟨hsolution, ?_⟩
    generalize t.1 = c' at houtcome
    cases houtcome with
    | done hdone => exact ⟨⟨fun _ => hdone, fun _ => rfl⟩, fun _ => rfl, nofun⟩
    | @choice v index p hpicks =>
      refine ⟨⟨nofun, fun hdone => ?_⟩, nofun, fun p' hp => ?_⟩
      · cases hpicks with
        | pick hopen => exact absurd hdone hopen.not_constructed
      · exact ⟨v, index, Option.some.inj hp ▸ hpicks, rfl⟩
  · obtain ⟨hconfig, choices, hmoves, htabu⟩ := hbuilds.recalls
    refine ⟨choices, hmoves, htabu.trans ?_⟩
    rw [List.rtake, List.rtake, hmoves.length_eq]
    congr 1
    omega

end Construction

/-- A variable with three options and none of them. -/
def World.vacant : World (Penalty ℚ) ℚ :=
  .ofSolution (.ofModel ⟨[[3, 1, 2]], [none], none, 0⟩) (.standard 0) none

/-- Construction that remembers one choice, after some calls whose moves are not made. -/
def Construction.choosy : Nat → Construction ℚ
  | 0 => .of ⟨1, 1, 1⟩
  | n + 1 => ((Strategy.select : Act _ (Penalty ℚ) ℚ _).after (choosy n, World.vacant)).1

/-- The second call passes over the cheapest option, which the first one has chosen. -/
theorem Construction.choice_best_choosy :
    (∃ moves, Builds (Penalty ℚ) ⟨1, 1, 1⟩ moves (choosy 2) ∧ moves.length = 2 ∧
      ∃ choices, List.Forall₂ (fun move choice => Names move.1 move.2 choice) moves choices ∧
        (choosy 2).tabu = choices.rtake (min 1 moves.length)) ∧
    (choosy 1).tabu = [(0, 1)] ∧
    ∃ p t, (Strategy.select : Act _ (Penalty ℚ) ℚ _) (choosy 1, World.vacant) = .ok (some p) t ∧
      (choosy 1).Picks World.vacant.solution.model 0 2 p := by
  obtain ⟨hconstructible, -, hcall, htabu⟩ := choice_best (K := ℚ) (M := Penalty ℚ)
  have hfirst : (choosy 1).tabu = [(0, 1)] := by decide +kernel
  have hsecond : (choosy 2).tabu = [(0, 2)] := by decide +kernel
  have hsize : (choosy 1).config.tabuSize = 1 := by decide +kernel
  have hm : Model.Constructible World.vacant.solution.model := hconstructible _ rfl
  obtain ⟨p?, t, hrun, -, -, hnone, hsome⟩ := ((hcall (choosy 1) World.vacant).mono
    (fun _ h => h) (fun _ _ h => h) fun t h => h.2.2 hm).exists_ok rfl
  have hleft : t.1 = choosy 2 := by rw [choosy, Attempt.after_of_ok hrun]
  refine ⟨?_, hfirst, ?_⟩
  · have hstart : Builds (Penalty ℚ) ⟨1, 1, 1⟩ [] (choosy 0) := .start
    have hbuilds := (hstart.select World.vacant rfl).select World.vacant rfl
    exact ⟨_, hbuilds, by decide +kernel, htabu hbuilds⟩
  · cases p? with
    | none =>
      rw [← hleft, hnone rfl, hfirst] at hsecond
      cases hsecond
    | some p =>
      obtain ⟨v, index, hpicks, hremember⟩ := hsome p rfl
      have hchoice : [(v, index)] = (choosy 2).tabu := by
        rw [← hleft, hremember, remember, hfirst, hsize]
        rfl
      rw [hsecond] at hchoice
      cases hchoice
      exact ⟨p, t, hrun, hpicks⟩

end LocalSearch
