import LocalSearch.Proofs.Attempt
import LocalSearch.Sequence.Basic
/-!
# What a part of a search does to the solution

An `Act` works on a part of a search and the world. Most of them leave the solution alone; what the
others do is stated by properties of the solution, which say nothing of the part.

* `Act.Quiet`: the solution stays as it is, however the operation ends. Its rules are simp lemmas.
* `Act.Spares`: so does something that can be seen of the part.
* `Act.Ensures`: `Attempt.Ensures` for properties of the solution.
* `Act.Leads`: the same for properties of the part and the solution together.
-/

namespace LocalSearch.Act

variable {S T M V α β γ : Type}

/-- The solution stays as it is. -/
abbrev Quiet (x : Act S M α β) : Prop :=
  Attempt.Fixes (fun s => s.2.solution) x

/-! ## Quiet operations -/

section

variable {x : Act S M α β}

@[simp]
theorem quiet_part : Quiet (part : Act S M α S) :=
  fun _ _ hs => hs

@[simp]
theorem quiet_solution : Quiet (solution : Act S M α (Solution M α)) :=
  fun _ _ hs => hs

@[simp]
theorem quiet_change (f : S → S) : Quiet (change f : Act S M α Unit) :=
  Attempt.fixes_modify fun _ => rfl

@[simp]
theorem quiet_report (level : Level) (name : String)
    (fields : Unit → List (String × FieldValue α)) :
    Quiet (report level name fields : Act S M α Unit) :=
  Attempt.fixes_modify fun _ => rfl

@[simp]
theorem quiet_onPart (x : Attempt S β) : Quiet (onPart x : Act S M α β) :=
  fun _ => Attempt.ensures_focus fun _ hs => Attempt.ensures_of (fun _ _ _ _ _ => hs)
    fun _ _ _ _ _ => hs

@[simp]
theorem quiet_withRandom (x : Attempt (S × Random.Stream) β) :
    Quiet (withRandom x : Act S M α β) :=
  fun _ => Attempt.ensures_focus fun _ hs => Attempt.ensures_of (fun _ _ _ _ _ => hs)
    fun _ _ _ _ _ => hs

@[simp]
theorem quiet_within {view : S → T} {put : S → T → S} {x : Act T M α β} (h : Quiet x) :
    Quiet (within view put x : Act S M α β) := by
  intro c
  refine Attempt.ensures_focus fun s hs => ?_
  exact (h c).mono_pre fun t ht => by rw [ht]; exact hs

theorem quiet_onWorld {x : Attempt (World M α) β} (h : Attempt.Fixes World.solution x) :
    Quiet (onWorld x : Act S M α β) := by
  intro c
  refine Attempt.ensures_focus fun s hs => ?_
  exact (h c).mono_pre fun t ht => by rw [ht]; exact hs

end

/-! ## Operations that do even less -/

section

variable {x : Act S M α β}

@[simp]
theorem total_part : Attempt.Total (part : Act S M α S) :=
  fun _ _ => trivial

@[simp]
theorem total_solution : Attempt.Total (solution : Act S M α (Solution M α)) :=
  fun _ _ => trivial

@[simp]
theorem total_change (f : S → S) : Attempt.Total (change f : Act S M α Unit) :=
  fun _ _ => trivial

@[simp]
theorem total_report (level : Level) (name : String)
    (fields : Unit → List (String × FieldValue α)) :
    Attempt.Total (report level name fields : Act S M α Unit) :=
  fun _ _ => trivial

@[simp]
theorem faultsOnly_part : Attempt.FaultsOnly (part : Act S M α S) :=
  fun _ _ _ h => by cases h

@[simp]
theorem faultsOnly_solution : Attempt.FaultsOnly (solution : Act S M α (Solution M α)) :=
  fun _ _ _ h => by cases h

@[simp]
theorem faultsOnly_change (f : S → S) : Attempt.FaultsOnly (change f : Act S M α Unit) :=
  fun _ _ _ h => by cases h

@[simp]
theorem faultsOnly_report (level : Level) (name : String)
    (fields : Unit → List (String × FieldValue α)) :
    Attempt.FaultsOnly (report level name fields : Act S M α Unit) :=
  fun _ _ _ h => by cases h

end

/-- Neither the part nor the solution changes. -/
abbrev Still (x : Act S M α β) : Prop :=
  Attempt.Fixes (fun s => (s.1, s.2.solution)) x

@[simp]
theorem still_solution : Still (solution : Act S M α (Solution M α)) :=
  fun _ _ hs => hs

@[simp]
theorem still_report (level : Level) (name : String)
    (fields : Unit → List (String × FieldValue α)) :
    Still (report level name fields : Act S M α Unit) :=
  Attempt.fixes_modify fun _ => rfl

/-- What `view` shows of the part does not change. -/
abbrev Spares (view : S → γ) (x : Act S M α β) : Prop :=
  Attempt.Fixes (fun s => view s.1) x

theorem spares_within {view : S → γ} {focus : S → T} {put : S → T → S}
    (h : ∀ s t, view (put s t) = view s) (x : Act T M α β) : Spares view (within focus put x : Act S M α β) :=
  fun _ => Attempt.ensures_focus fun _ hs => Attempt.ensures_of
    (fun _ _ _ _ _ => (h _ _).trans hs) fun _ _ _ _ _ => (h _ _).trans hs

/-! ## Properties of the solution -/

/-- A run from a solution with `P` ends with an answer at a solution with `Q`, or with a failure at
one with `E`. -/
def Ensures (P : Solution M α → Prop) (x : Act S M α β) (Q : β → Solution M α → Prop)
    (E : Solution M α → Prop) : Prop :=
  Attempt.Ensures (fun s => P s.2.solution) x (fun b s => Q b s.2.solution)
    (fun s => E s.2.solution)

section

variable {P P' : Solution M α → Prop} {Q Q' : β → Solution M α → Prop}
  {R : γ → Solution M α → Prop} {E E' : Solution M α → Prop}
  {x : Act S M α β} {f : β → Act S M α γ}

theorem Ensures.mono (h : Ensures P x Q E) (hP : ∀ s, P' s → P s) (hQ : ∀ b s, Q b s → Q' b s)
    (hE : ∀ s, E s → E' s) : Ensures P' x Q' E' :=
  Attempt.Ensures.mono h (fun s => hP s.2.solution) (fun b s => hQ b s.2.solution)
    fun s => hE s.2.solution

theorem Ensures.mono_pre (h : Ensures P x Q E) (hP : ∀ s, P' s → P s) : Ensures P' x Q E :=
  h.mono hP (fun _ _ h => h) fun _ h => h

theorem Ensures.mono_post (h : Ensures P x Q E) (hQ : ∀ b s, Q b s → Q' b s) :
    Ensures P x Q' E :=
  h.mono (fun _ h => h) hQ fun _ h => h

theorem Ensures.after {t : S × World M α} (h : Ensures P x (fun _ => E) E) (ht : P t.2.solution) :
    E (Attempt.after x t).2.solution :=
  Attempt.Ensures.after (show Attempt.Ensures (fun t => P t.2.solution) x
    (fun _ t => E t.2.solution) (fun t => E t.2.solution) from h) ht

theorem ensures_pure {b : β} (h : ∀ s, P s → Q b s) : Ensures P (pure b : Act S M α β) Q E :=
  Attempt.ensures_pure fun s hs => h s.2.solution hs

theorem Ensures.bind (hx : Ensures P x Q E) (hf : ∀ b, Ensures (Q b) (f b) R E) :
    Ensures P (x >>= f) R E :=
  Attempt.Ensures.bind hx hf

/-- A quiet operation keeps every property of the solution. -/
theorem ensures_quiet (hx : Quiet x) (hE : ∀ s, P s → E s) : Ensures P x (fun _ => P) E :=
  (Attempt.Fixes.ensures hx P).mono (fun _ h => h) (fun _ _ h => h) fun s => hE s.2.solution

/-- A quiet operation that never fails does not fail. -/
theorem ensures_total (hx : Quiet x) (ht : Attempt.Total x) : Ensures P x (fun _ => P) E :=
  Attempt.Ensures.total (ensures_quiet (E := P) hx fun _ h => h) ht

theorem ensures_total_bind (hx : Quiet x) (ht : Attempt.Total x)
    (hf : ∀ b, Ensures P (f b) R E) : Ensures P (x >>= f) R E :=
  (ensures_total hx ht).bind hf

theorem ensures_quiet_bind (hx : Quiet x) (hE : ∀ s, P s → E s)
    (hf : ∀ b, Ensures P (f b) R E) : Ensures P (x >>= f) R E :=
  (ensures_quiet hx hE).bind hf

/-- A quiet operation that is done only under a condition. -/
theorem ensures_quiet_when {c : Prop} [Decidable c] {x : Act S M α Unit} {f : Unit → Act S M α γ}
    (hx : Quiet x) (hE : ∀ s, P s → E s) (hf : ∀ u, Ensures P (f u) R E) :
    Ensures P (if c then x >>= f else f ()) R E := by
  split
  · exact ensures_quiet_bind hx hE hf
  · exact hf ()

theorem ensures_solution_bind {f : Solution M α → Act S M α γ}
    (hf : ∀ s, P s → Ensures (· = s) (f s) R E) : Ensures P (solution >>= f) R E := by
  intro s hs
  exact hf s.2.solution hs s rfl

theorem ensures_get_bind {f : S × World M α → Act S M α γ}
    (hf : ∀ t, P t.2.solution → Ensures (· = t.2.solution) (f t) R E) :
    Ensures P (get >>= f) R E := by
  intro s hs
  exact hf s hs s rfl

theorem ensures_set {t : S × World M α} {Q : PUnit → Solution M α → Prop}
    (h : ∀ s, P s → Q ⟨⟩ t.2.solution) : Ensures P (set t : Act S M α PUnit) Q E :=
  fun s hs => h s.2.solution hs

theorem ensures_lift_bind_of_ok {c : Except Fault β} {b : β} (hc : c = .ok b)
    (hf : Ensures P (f b) R E) : Ensures P (liftM c >>= f) R E :=
  Attempt.ensures_lift_bind_of_ok hc hf

/-- What was computed may be used from then on. -/
theorem ensures_lift_bind {c : Except Fault β} (hE : ∀ s, P s → E s)
    (hf : ∀ b, c = .ok b → Ensures P (f b) R E) : Ensures P (liftM c >>= f) R E :=
  Attempt.ensures_lift_bind (fun s => hE s.2.solution) hf

/-- An operation is quiet if it is so from every solution. -/
theorem quiet_of_ensures (h : ∀ s, Ensures (· = s) x (fun _ => (· = s)) (· = s)) : Quiet x :=
  h

theorem ensures_within {view : S → T} {put : S → T → S} {y : Act T M α β} (h : Ensures P y Q E) :
    Ensures P (within view put y : Act S M α β) Q E := by
  refine Attempt.ensures_focus fun s hs => ?_
  exact Attempt.Ensures.mono_pre h fun t ht => by rw [ht]; exact hs

theorem ensures_onWorld {y : Attempt (World M α) β}
    (h : Attempt.Ensures (fun w => P w.solution) y (fun b w => Q b w.solution)
      (fun w => E w.solution)) : Ensures P (onWorld y : Act S M α β) Q E := by
  refine Attempt.ensures_focus fun s hs => ?_
  exact Attempt.Ensures.mono_pre h fun t ht => by rw [ht]; exact hs

theorem ensures_firstOf {step : Act S M α (Option β)} {R : Option β → Solution M α → Prop}
    (h : Ensures P step R E) (hnone : ∀ s, R none s ↔ P s) (n : Nat) :
    Ensures P (Attempt.firstOf step n) R E :=
  Attempt.ensures_firstOf h (fun s => hnone s.2.solution) n

end

/-! ## Properties of the part and the solution -/

/-- A run from a part and a solution with `P` ends with an answer at ones with `Q`, or with a
failure at ones with `E`. -/
def Leads (P : S → Solution M α → Prop) (x : Act S M α β) (Q : β → S → Solution M α → Prop)
    (E : S → Solution M α → Prop) : Prop :=
  Attempt.Ensures (fun s => P s.1 s.2.solution) x (fun b s => Q b s.1 s.2.solution)
    (fun s => E s.1 s.2.solution)

section

variable {P P' : S → Solution M α → Prop} {Q Q' : β → S → Solution M α → Prop}
  {R : γ → S → Solution M α → Prop} {E E' : S → Solution M α → Prop}
  {x : Act S M α β} {f : β → Act S M α γ}

/-- What is known of the solution alone. -/
theorem Ensures.leads {P E : Solution M α → Prop} {Q : β → Solution M α → Prop}
    (h : Ensures P x Q E) : Leads (fun _ => P) x (fun b _ => Q b) (fun _ => E) :=
  h

theorem Leads.mono (h : Leads P x Q E) (hP : ∀ t s, P' t s → P t s)
    (hQ : ∀ b t s, Q b t s → Q' b t s) (hE : ∀ t s, E t s → E' t s) : Leads P' x Q' E' :=
  Attempt.Ensures.mono h (fun s => hP s.1 s.2.solution) (fun b s => hQ b s.1 s.2.solution)
    fun s => hE s.1 s.2.solution

theorem Leads.mono_pre (h : Leads P x Q E) (hP : ∀ t s, P' t s → P t s) : Leads P' x Q E :=
  h.mono hP (fun _ _ _ h => h) fun _ _ h => h

theorem Leads.mono_post (h : Leads P x Q E) (hQ : ∀ b t s, Q b t s → Q' b t s) :
    Leads P x Q' E :=
  h.mono (fun _ _ h => h) hQ fun _ _ h => h

theorem Leads.mono_error (h : Leads P x Q E) (hE : ∀ t s, E t s → E' t s) : Leads P x Q E' :=
  h.mono (fun _ _ h => h) (fun _ _ _ h => h) hE

/-- What both ways to end lead to holds of what is left. -/
theorem Leads.after {t : S × World M α} (h : Leads P x (fun _ => E) E) (ht : P t.1 t.2.solution) :
    E (Attempt.after x t).1 (Attempt.after x t).2.solution :=
  Attempt.Ensures.after (show Attempt.Ensures (fun t => P t.1 t.2.solution) x
    (fun _ t => E t.1 t.2.solution) (fun t => E t.1 t.2.solution) from h) ht

/-- A run from one state. -/
theorem Leads.run (h : Leads P x Q E) {t : S × World M α} (ht : P t.1 t.2.solution) :
    Attempt.Ensures (· = t) x (fun b t => Q b t.1 t.2.solution) (fun t => E t.1 t.2.solution) :=
  Attempt.Ensures.mono_pre h fun _ hs => hs ▸ ht

/-- Two things that a run leads to hold together. -/
theorem Leads.and (h : Leads P x Q E) (h' : Leads P x Q' E') :
    Leads P x (fun b t s => Q b t s ∧ Q' b t s) (fun t s => E t s ∧ E' t s) :=
  Attempt.Ensures.and h h'

/-- A fact that does not depend on the state. -/
theorem leads_of_fact {p : Prop} (h : p → Leads P x Q E) : Leads (fun t s => P t s ∧ p) x Q E :=
  fun t ht => h ht.2 t ht.1

theorem leads_pure {b : β} (h : ∀ t s, P t s → Q b t s) :
    Leads P (pure b : Act S M α β) Q E :=
  Attempt.ensures_pure fun s => h s.1 s.2.solution

theorem Leads.bind (hx : Leads P x Q E) (hf : ∀ b, Leads (Q b) (f b) R E) :
    Leads P (x >>= f) R E :=
  Attempt.Ensures.bind hx hf

/-- The part and the solution of a state. -/
def At (t : S) (s : Solution M α) (t' : S) (s' : Solution M α) : Prop :=
  t' = t ∧ s' = s

theorem Leads.at (h : Leads P x Q E) {t : S} {s : Solution M α} (hP : P t s) :
    Leads (At t s) x Q E :=
  h.mono_pre fun _ _ ⟨ht, hs⟩ => by rw [ht, hs]; exact hP

/-- It is enough to look at every start. -/
theorem leads_of_at (h : ∀ t s, P t s → Leads (At t s) x Q E) : Leads P x Q E :=
  fun s hs => h s.1 s.2.solution hs s ⟨rfl, rfl⟩

theorem leads_part_bind {f : S → Act S M α γ}
    (hf : ∀ t s, P t s → Leads (At t s) (f t) R E) : Leads P (part >>= f) R E := by
  intro s hs
  exact hf s.1 s.2.solution hs s ⟨rfl, rfl⟩

theorem leads_solution_bind {f : Solution M α → Act S M α γ}
    (hf : ∀ t s, P t s → Leads (At t s) (f s) R E) : Leads P (solution >>= f) R E := by
  intro s hs
  exact hf s.1 s.2.solution hs s ⟨rfl, rfl⟩

theorem leads_get_bind {f : S × World M α → Act S M α γ}
    (hf : ∀ t w, P t w.solution → Leads (At t w.solution) (f (t, w)) R E) :
    Leads P (get >>= f) R E := by
  intro s hs
  exact hf s.1 s.2 hs s ⟨rfl, rfl⟩

theorem leads_part_bind_at {f : S → Act S M α γ} {t : S} {s : Solution M α}
    (hf : Leads (At t s) (f t) R E) : Leads (At t s) (part >>= f) R E :=
  leads_part_bind fun _ _ ⟨ht, hs⟩ => by rw [ht, hs]; exact hf

theorem leads_solution_bind_at {f : Solution M α → Act S M α γ} {t : S} {s : Solution M α}
    (hf : Leads (At t s) (f s) R E) : Leads (At t s) (solution >>= f) R E :=
  leads_solution_bind fun _ _ ⟨ht, hs⟩ => by rw [ht, hs]; exact hf

/-- The same for what is said of the whole state. -/
theorem ensures_whole_part_bind {f : S → Act S M α γ} {t : S × World M α}
    {R : γ → S × World M α → Prop} {E : S × World M α → Prop}
    (hf : Attempt.Ensures (· = t) (f t.1) R E) :
    Attempt.Ensures (· = t) (part >>= f) R E := by
  rintro _ rfl
  exact hf _ rfl

/-- It may not matter what the part is. -/
theorem leads_part_bind_any {f : S → Act S M α γ} (hf : ∀ t, Leads P (f t) R E) :
    Leads P (part >>= f) R E :=
  Leads.bind (Q := fun _ => P) (fun _ hs => hs) hf

/-- It may not matter what the solution is. -/
theorem leads_solution_bind_any {f : Solution M α → Act S M α γ} (hf : ∀ s, Leads P (f s) R E) :
    Leads P (solution >>= f) R E :=
  Leads.bind (Q := fun _ => P) (fun _ hs => hs) hf

theorem leads_set {t : S} {w : World M α} {Q : PUnit → S → Solution M α → Prop}
    (h : ∀ t' s, P t' s → Q ⟨⟩ t w.solution) : Leads P (set (t, w) : Act S M α PUnit) Q E :=
  fun s => h s.1 s.2.solution

theorem leads_change {g : S → S} {Q : Unit → S → Solution M α → Prop}
    (h : ∀ t s, P t s → Q () (g t) s) : Leads P (change g : Act S M α Unit) Q E :=
  fun s => h s.1 s.2.solution

/-- An operation keeps what is known of the part by what it does not change there. -/
theorem Spares.leads {view : S → T} (hx : Spares view x) (K : T → Prop) :
    Leads (fun t _ => K (view t)) x (fun _ t _ => K (view t)) (fun t _ => K (view t)) :=
  Attempt.Fixes.ensures hx K

/-- An operation that is done only under a condition. -/
theorem leads_when {c : Prop} [Decidable c] {x : Act S M α Unit} {f : Unit → Act S M α γ}
    (hx : Leads P x (fun _ => P) E) (hf : ∀ u, Leads P (f u) R E) :
    Leads P (if c then x >>= f else f ()) R E := by
  split
  · exact hx.bind hf
  · exact hf ()

/-- A change that is made only under a condition. -/
theorem leads_change_when {c : Prop} [Decidable c] {g : S → S} {f : Unit → Act S M α γ} {t : S}
    {s : Solution M α} (hf : Leads (At (if c then g t else t) s) (f ()) R E) :
    Leads (At t s) (if c then change g >>= f else f ()) R E := by
  by_cases hc : c
  · rw [if_pos hc] at hf ⊢
    exact Leads.bind (leads_change fun _ _ h => ⟨congrArg g h.1, h.2⟩) fun _ => hf
  · rw [if_neg hc] at hf ⊢
    exact hf

/-- Reporting changes neither the part nor the solution. -/
theorem leads_report_bind {level : Level} {name : String}
    {fields : Unit → List (String × FieldValue α)} {f : Unit → Act S M α γ}
    (hf : ∀ u, Leads P (f u) R E) : Leads P (report level name fields >>= f) R E :=
  Leads.bind (Q := fun _ => P) (fun _ hs => hs) hf

/-- A report that is made only under a condition. -/
theorem leads_report_when {c : Prop} [Decidable c] {level : Level} {name : String}
    {fields : Unit → List (String × FieldValue α)} {f : Unit → Act S M α γ}
    (hf : ∀ u, Leads P (f u) R E) :
    Leads P (if c then report level name fields >>= f else f ()) R E := by
  split
  · exact leads_report_bind hf
  · exact hf ()

theorem leads_report {level : Level} {name : String}
    {fields : Unit → List (String × FieldValue α)} {Q : Unit → S → Solution M α → Prop}
    (h : ∀ t s, P t s → Q () t s) : Leads P (report level name fields : Act S M α Unit) Q E :=
  fun s => h s.1 s.2.solution

theorem leads_lift_bind_of_ok {c : Except Fault β} {b : β} (hc : c = .ok b)
    (hf : Leads P (f b) R E) : Leads P (liftM c >>= f) R E :=
  Attempt.ensures_lift_bind_of_ok hc hf

theorem leads_lift_bind_or {c : Except Fault β} (hE : ∀ t s, (∀ b, c ≠ .ok b) → P t s → E t s)
    (hf : ∀ b, c = .ok b → Leads P (f b) R E) : Leads P (liftM c >>= f) R E :=
  Attempt.ensures_lift_bind_or (fun s => hE s.1 s.2.solution) hf

theorem leads_lift_bind {c : Except Fault β} (hE : ∀ t s, P t s → E t s)
    (hf : ∀ b, c = .ok b → Leads P (f b) R E) : Leads P (liftM c >>= f) R E :=
  leads_lift_bind_or (fun t s _ => hE t s) hf

theorem leads_forM {f : β → Act S M α PUnit} (xs : List β)
    (h : ∀ b ∈ xs, Leads P (f b) (fun _ => P) E) : Leads P (xs.forM f) (fun _ => P) E :=
  Attempt.ensures_forM xs h

theorem leads_throw {e : Failure} (h : ∀ t s, P t s → E t s) :
    Leads P (throw e : Act S M α β) Q E :=
  fun s => h s.1 s.2.solution

/-- An operation on a part of the part. -/
theorem leads_within {view : S → T} {put : S → T → S} {y : Act T M α β}
    (h : ∀ t s, P t s → Leads (At (view t) s) y (fun b u s => Q b (put t u) s)
      (fun u s => E (put t u) s)) : Leads P (within view put y) Q E := by
  refine Attempt.ensures_focus fun s hs => ?_
  exact Attempt.Ensures.mono_pre (h s.1 s.2.solution hs) fun t ht => by rw [ht]; exact ⟨rfl, rfl⟩

theorem leads_onWorld {y : Attempt (World M α) β}
    (h : ∀ t, Attempt.Ensures (fun w => P t w.solution) y (fun b w => Q b t w.solution)
      (fun w => E t w.solution)) : Leads P (onWorld y : Act S M α β) Q E := by
  refine Attempt.ensures_focus fun s hs => ?_
  exact Attempt.Ensures.mono_pre (h s.1) fun w hw => by rw [hw]; exact hs

/-- An operation on a part of the part keeps what is said of the rest. -/
theorem leads_within_of_kept {view : S → T} {put : S → T → S} {y : Act T M α β} {K : S → Prop}
    (hK : ∀ t u, K t → K (put t u)) :
    Leads (fun t _ => K t) (within view put y) (fun _ t _ => K t) (fun t _ => K t) :=
  leads_within fun t _ ht => Attempt.ensures_of (fun _ _ s' _ _ => hK t s'.1 ht)
    fun _ _ s' _ _ => hK t s'.1 ht

/-- An operation on a part of the part that says nothing of the parts. -/
theorem leads_within_of_ensures {view : S → T} {put : S → T → S} {y : Act T M α β}
    {P : Solution M α → Prop} {Q : β → Solution M α → Prop} {E : Solution M α → Prop}
    {K : S → Prop} (h : Ensures P y Q E) (hK : ∀ t u, K t → K (put t u)) :
    Leads (fun t s => P s ∧ K t) (within view put y) (fun b t s => Q b s ∧ K t)
      (fun t s => E s ∧ K t) :=
  leads_within fun t _ hs => (h.leads.mono (fun _ _ h => h) (fun _ u _ hQ => ⟨hQ, hK t u hs.2⟩)
    fun u _ hE => ⟨hE, hK t u hs.2⟩).at hs.1

end

end LocalSearch.Act
