import LocalSearch.Failure
/-!
# What an operation ensures

An `Attempt` ends with an answer or with a failure, and leaves a state either way. Two notions of
what it does to the state, each with one rule for every way in which operations are built:

* `Attempt.Ensures`: from states with one property it ends in states with another one, which may
  speak of the answer. Failures have a property of their own, because a failing operation keeps what
  it did before.
* `Attempt.Fixes`: it does not change some part of the state, however it ends. Its rules are simp
  lemmas, so that `simp` proves it for an operation built from such operations.
* `Attempt.Total`: it never fails. Its rules are simp lemmas as well.
* `Attempt.FaultsOnly`: it never reports an error. Its rules are simp lemmas, too.
-/

namespace LocalSearch.Attempt

variable {σ τ γ α β : Type}

/-- A run from a state with `P` ends with an answer in a state with `Q`, or with a failure in a
state with `E`. -/
def Ensures (P : σ → Prop) (x : Attempt σ α) (Q : α → σ → Prop) (E : σ → Prop) : Prop :=
  ∀ s, P s → match x s with
    | .ok a s => Q a s
    | .error _ s => E s

/-- The state that a run leaves, however it ends. -/
def after (x : Attempt σ α) (s : σ) : σ :=
  match x s with
  | .ok _ s => s
  | .error _ s => s

/-- The answer of a run, if it does not fail. -/
def answer? (x : Attempt σ α) (s : σ) : Option α :=
  match x s with
  | .ok a _ => some a
  | .error _ _ => none

section

variable {P P' : σ → Prop} {Q Q' : α → σ → Prop} {R : β → σ → Prop} {E E' : σ → Prop}
  {x : Attempt σ α} {f : α → Attempt σ β} {s s' : σ}

theorem Ensures.of_ok (h : Ensures P x Q E) {a : α} (hs : P s) (hx : x s = .ok a s') : Q a s' := by
  have hend := h s hs
  rwa [hx] at hend

theorem Ensures.of_error (h : Ensures P x Q E) {e : Failure} (hs : P s) (hx : x s = .error e s') :
    E s' := by
  have hend := h s hs
  rwa [hx] at hend

/-- It is enough to look at the two ways to end. -/
theorem ensures_of (hok : ∀ s a s', P s → x s = .ok a s' → Q a s')
    (herror : ∀ s e s', P s → x s = .error e s' → E s') : Ensures P x Q E := by
  intro s hs
  cases hx : x s with
  | ok a s' => exact hok s a s' hs hx
  | error e s' => exact herror s e s' hs hx

theorem ensures_any : Ensures P x (fun _ _ => True) fun _ => True :=
  ensures_of (fun _ _ _ _ _ => trivial) fun _ _ _ _ _ => trivial

/-- What is ensured of both ways to end holds of the state that is left. -/
theorem Ensures.after (h : Ensures P x (fun _ => P') P') (hs : P s) : P' (after x s) := by
  unfold Attempt.after
  cases hx : x s with
  | ok a s' => exact h.of_ok hs hx
  | error e s' => exact h.of_error hs hx

theorem after_of_ok {a : α} (h : x s = .ok a s') : after x s = s' := by
  simp only [after, h]

theorem after_of_error {e : Failure} (h : x s = .error e s') : after x s = s' := by
  simp only [after, h]

/-- An answer comes with the state that is left. -/
theorem exists_ok_after (h : (answer? x s).isSome = true) : ∃ a, x s = .ok a (after x s) := by
  unfold answer? at h
  cases hx : x s with
  | ok a s' => exact ⟨a, by rw [after_of_ok hx]⟩
  | error e s' =>
    rw [hx] at h
    cases h

/-- Two things that a run ensures hold together. -/
theorem Ensures.and (h : Ensures P x Q E) (h' : Ensures P x Q' E') :
    Ensures P x (fun a s => Q a s ∧ Q' a s) (fun s => E s ∧ E' s) :=
  ensures_of (fun _ _ _ hs hx => ⟨h.of_ok hs hx, h'.of_ok hs hx⟩)
    fun _ _ _ hs hx => ⟨h.of_error hs hx, h'.of_error hs hx⟩

/-- A run that cannot fail gives an answer. -/
theorem Ensures.exists_ok (h : Ensures P x Q fun _ => False) (hs : P s) :
    ∃ a s', x s = .ok a s' ∧ Q a s' := by
  cases hx : x s with
  | ok a s' => exact ⟨a, s', rfl, h.of_ok hs hx⟩
  | error e s' => exact (h.of_error hs hx).elim

theorem Ensures.mono (h : Ensures P x Q E) (hP : ∀ s, P' s → P s) (hQ : ∀ a s, Q a s → Q' a s)
    (hE : ∀ s, E s → E' s) : Ensures P' x Q' E' :=
  ensures_of (fun _ _ _ hs hx => hQ _ _ (h.of_ok (hP _ hs) hx))
    (fun _ _ _ hs hx => hE _ (h.of_error (hP _ hs) hx))

theorem Ensures.mono_pre (h : Ensures P x Q E) (hP : ∀ s, P' s → P s) : Ensures P' x Q E :=
  h.mono hP (fun _ _ h => h) fun _ h => h

theorem Ensures.mono_post (h : Ensures P x Q E) (hQ : ∀ a s, Q a s → Q' a s) :
    Ensures P x Q' E :=
  h.mono (fun _ h => h) hQ fun _ h => h

theorem ensures_pure {a : α} (h : ∀ s, P s → Q a s) : Ensures P (pure a : Attempt σ α) Q E :=
  fun s hs => h s hs

theorem Ensures.bind (hx : Ensures P x Q E) (hf : ∀ a, Ensures (Q a) (f a) R E) :
    Ensures P (x >>= f) R E := by
  intro s hs
  show match EStateM.bind x f s with
    | .ok b s => R b s
    | .error _ s => E s
  unfold EStateM.bind
  cases hrun : x s with
  | ok a s' => exact hf a s' (hx.of_ok hs hrun)
  | error e s' => exact hx.of_error hs hrun

theorem Ensures.map {g : α → β} (hx : Ensures P x (fun a => R (g a)) E) :
    Ensures P (g <$> x) R E := by
  rw [map_eq_pure_bind]
  exact hx.bind fun _ => ensures_pure fun _ h => h

theorem ensures_get_bind {f : σ → Attempt σ β} (hf : ∀ t, P t → Ensures (· = t) (f t) R E) :
    Ensures P (get >>= f) R E :=
  Ensures.bind (Q := fun t s => s = t ∧ P t) (fun _ hs => ⟨rfl, hs⟩) fun t s ⟨hst, ht⟩ =>
    hf t ht s hst

theorem ensures_get_bind_at {f : σ → Attempt σ β} (hf : Ensures (· = s) (f s) R E) :
    Ensures (· = s) (get >>= f) R E :=
  ensures_get_bind fun t ht => by rw [ht]; exact hf

/-- It is enough to look at every start. -/
theorem ensures_of_at (h : ∀ s, P s → Ensures (· = s) x Q E) : Ensures P x Q E :=
  fun s hs => h s hs s rfl

/-- A run that is known may be used from then on. -/
theorem ensures_bind_at (hok : ∀ a s', x s = .ok a s' → Ensures (· = s') (f a) R E)
    (herror : ∀ e s', x s = .error e s' → E s') : Ensures (· = s) (x >>= f) R E := by
  rintro _ rfl
  show match EStateM.bind x f _ with
    | .ok b s => R b s
    | .error _ s => E s
  unfold EStateM.bind
  cases hrun : x _ with
  | ok a s' => exact hok a s' hrun s' rfl
  | error e s' => exact herror e s' hrun

theorem ensures_set {t : σ} {Q : PUnit → σ → Prop} (h : ∀ s, P s → Q ⟨⟩ t) :
    Ensures P (set t : Attempt σ PUnit) Q E :=
  fun s hs => h s hs

theorem ensures_modify {g : σ → σ} {Q : PUnit → σ → Prop} (h : ∀ s, P s → Q ⟨⟩ (g s)) :
    Ensures P (modify g : Attempt σ PUnit) Q E :=
  fun s hs => h s hs

theorem ensures_modifyGet {g : σ → α × σ} (h : ∀ s, P s → Q (g s).1 (g s).2) :
    Ensures P (modifyGet g : Attempt σ α) Q E :=
  fun s hs => h s hs

/-- Computing leaves the state as it is. -/
theorem ensures_lift {c : Except Fault α} (hQ : ∀ a s, c = .ok a → P s → Q a s)
    (hE : ∀ s, P s → E s) : Ensures P (liftM c : Attempt σ α) Q E := by
  intro s hs
  cases c with
  | ok a => exact hQ a s rfl hs
  | error e => exact hE s hs

/-- A computation that is known to give a result cannot fail. -/
theorem ensures_lift_bind_of_ok {c : Except Fault α} {a : α} (hc : c = .ok a)
    (hf : Ensures P (f a) R E) : Ensures P (liftM c >>= f) R E := by
  rw [hc]
  exact hf

/-- What was computed may be used from then on, and if there is no result, this may be used. -/
theorem ensures_lift_bind_or {c : Except Fault α} (hE : ∀ s, (∀ a, c ≠ .ok a) → P s → E s)
    (hf : ∀ a, c = .ok a → Ensures P (f a) R E) : Ensures P (liftM c >>= f) R E := by
  cases hc : c with
  | ok a => exact hf a hc
  | error e => exact fun s hs => hE s (fun _ h => by cases hc.symm.trans h) hs

/-- What was computed may be used from then on. -/
theorem ensures_lift_bind {c : Except Fault α} (hE : ∀ s, P s → E s)
    (hf : ∀ a, c = .ok a → Ensures P (f a) R E) : Ensures P (liftM c >>= f) R E :=
  ensures_lift_bind_or (fun s _ => hE s) hf

theorem ensures_liftFailure {c : Except Failure α} (hQ : ∀ a s, c = .ok a → P s → Q a s)
    (hE : ∀ s, P s → E s) : Ensures P (liftM c : Attempt σ α) Q E := by
  intro s hs
  cases c with
  | ok a => exact hQ a s rfl hs
  | error e => exact hE s hs

theorem bind_of_ok {a : α} (h : x s = .ok a s') : (x >>= f) s = f a s' := by
  show EStateM.bind x f s = _
  simp only [EStateM.bind, h]

theorem bind_of_error {e : Failure} (h : x s = .error e s') : (x >>= f) s = .error e s' := by
  show EStateM.bind x f s = _
  simp only [EStateM.bind, h]

theorem after_bind_of_ok {a : α} (h : x s = .ok a s') : after (x >>= f) s = after (f a) s' := by
  simp only [after, bind_of_ok h]

/-- Giving another answer leaves the same state. -/
theorem after_bind_pure {b : β} : after (x >>= fun _ => pure b) s = after x s := by
  cases hx : x s with
  | ok a s' =>
    rw [after_bind_of_ok hx, after_of_ok hx]
    rfl
  | error e s' => rw [after_of_error (bind_of_error hx), after_of_error hx]

theorem lift_bind_of_ok {c : Except Fault α} {a : α} (h : c = .ok a) :
    ((liftM c : Attempt σ α) >>= f) s = f a s := by
  rw [h]
  rfl

theorem update_of_ok {g : σ → Except Fault σ} (h : g s = .ok s') : update g s = .ok () s' := by
  simp only [update, h]

theorem ensures_update {g : σ → Except Fault σ} {Q : Unit → σ → Prop}
    (h : ∀ s s', P s → g s = .ok s' → Q () s') (hE : ∀ s, P s → E s) :
    Ensures P (update g) Q E := by
  refine ensures_of (fun s a s' hs hrun => ?_) fun s e s' hs hrun => ?_
  · cases hg : g s with
    | ok t => simp only [update, hg] at hrun; cases hrun; exact h s _ hs hg
    | error e => simp only [update, hg] at hrun; cases hrun
  · cases hg : g s with
    | ok t => simp only [update, hg] at hrun; cases hrun
    | error e => simp only [update, hg] at hrun; cases hrun; exact hE s hs

theorem ensures_update_at {g : σ → Except Fault σ} (hE : E s) :
    Ensures (· = s) (update g) (fun _ s' => g s = .ok s') E :=
  ensures_update (fun _ _ hs hg => hs ▸ hg) fun _ hs => hs ▸ hE

/-- An update that is known to give a result cannot fail. -/
theorem ensures_update_of_ok {g : σ → Except Fault σ} {Q : Unit → σ → Prop}
    (h : ∀ s, P s → ∃ s', g s = .ok s' ∧ Q () s') : Ensures P (update g) Q E := by
  intro s hs
  obtain ⟨s', hg, hQ⟩ := h s hs
  rw [update_of_ok hg]
  exact hQ

/-- An operation on a part does to the part what it does there. -/
theorem ensures_focus {view : σ → τ} {put : σ → τ → σ} {y : Attempt τ α}
    (h : ∀ s, P s → Ensures (· = view s) y (fun a t => Q a (put s t)) (fun t => E (put s t))) :
    Ensures P (focus view put y) Q E := by
  intro s hs
  have hy := h s hs (view s) rfl
  cases hrun : y (view s) with
  | ok a t => rw [hrun] at hy; simp only [focus, hrun]; exact hy
  | error e t => rw [hrun] at hy; simp only [focus, hrun]; exact hy

/-- Attempts in a row, of which one without an answer may be repeated. -/
theorem ensures_firstOf {step : Attempt σ (Option α)} {R : Option α → σ → Prop}
    (h : Ensures P step R E) (hnone : ∀ s, R none s ↔ P s) (n : Nat) :
    Ensures P (firstOf step n) R E := by
  induction n with
  | zero => exact ensures_pure fun s hs => (hnone s).2 hs
  | succ n ih =>
    unfold firstOf
    refine h.bind fun a? => ?_
    cases a? with
    | none => exact ih.mono_pre fun s hs => (hnone s).1 hs
    | some a => exact ensures_pure fun _ hs => hs

theorem ensures_forM {f : α → Attempt σ PUnit} (xs : List α)
    (h : ∀ a ∈ xs, Ensures P (f a) (fun _ => P) E) :
    Ensures P (xs.forM f) (fun _ => P) E := by
  induction xs with
  | nil => exact ensures_pure fun _ hs => hs
  | cons a rest ih =>
    exact (h a List.mem_cons_self).bind fun _ =>
      ih fun b hb => h b (List.mem_cons_of_mem a hb)

/-- An operation for every item of a list, with a property that knows which items are left. -/
theorem ensures_forM_rest {f : α → Attempt σ PUnit} {P : List α → σ → Prop}
    (h : ∀ a rest, Ensures (P (a :: rest)) (f a) (fun _ => P rest) E) (xs : List α) :
    Ensures (P xs) (xs.forM f) (fun _ => P []) E := by
  induction xs with
  | nil => exact ensures_pure fun _ hs => hs
  | cons a rest ih => exact (h a rest).bind fun _ => ih

/-- A loop over a list, with a property that knows which items are left. -/
theorem ensures_forIn_rest {f : α → PUnit → Attempt σ (ForInStep PUnit)} {P : List α → σ → Prop}
    (h : ∀ a rest, Ensures (P (a :: rest)) (f a ⟨⟩)
      (fun next s => next = .yield ⟨⟩ ∧ P rest s) E) (xs : List α) :
    Ensures (P xs) (forIn xs ⟨⟩ f) (fun _ => P []) E := by
  induction xs with
  | nil => exact ensures_pure fun _ hs => hs
  | cons a rest ih =>
    rw [List.forIn_cons]
    refine (h a rest).bind fun next => ?_
    cases next with
    | done u => exact fun s hs => by cases hs.1
    | yield u => exact ih.mono_pre fun _ hs => hs.2

theorem ensures_forIn {f : α → PUnit → Attempt σ (ForInStep PUnit)} (xs : List α)
    (h : ∀ a ∈ xs, Ensures P (f a ⟨⟩) (fun _ => P) E) :
    Ensures P (forIn xs ⟨⟩ f) (fun _ => P) E := by
  induction xs with
  | nil => exact ensures_pure fun _ hs => hs
  | cons a rest ih =>
    rw [List.forIn_cons]
    refine (h a List.mem_cons_self).bind fun next => ?_
    cases next with
    | done u => exact ensures_pure fun _ hs => hs
    | yield u => exact ih fun b hb => h b (List.mem_cons_of_mem a hb)

/-- An operation on every item of a list keeps what it keeps of an item. -/
theorem ensures_each {y : Attempt τ Unit} {I : τ → Prop} (h : Ensures I y (fun _ => I) I) :
    Ensures (fun items => ∀ t ∈ items, I t) (each y) (fun _ items => ∀ t ∈ items, I t)
      (fun items => ∀ t ∈ items, I t) := by
  intro items hitems
  induction items with
  | nil => exact hitems
  | cons t rest ih =>
    obtain ⟨ht, hrest⟩ := List.forall_mem_cons.1 hitems
    have hrest' := ih hrest
    unfold each
    cases hrun : y t with
    | error e t' => exact List.forall_mem_cons.2 ⟨h.of_error ht hrun, hrest⟩
    | ok _ t' =>
      have ht' := h.of_ok ht hrun
      cases hruns : each y rest with
      | ok _ rest' =>
        rw [hruns] at hrest'
        exact List.forall_mem_cons.2 ⟨ht', hrest'⟩
      | error e rest' =>
        rw [hruns] at hrest'
        exact List.forall_mem_cons.2 ⟨ht', hrest'⟩

end

/-! ## Unchanged parts -/

/-- However it ends, a run leaves `part` of the state as it was. -/
def Fixes (part : σ → γ) (x : Attempt σ α) : Prop :=
  ∀ c, Ensures (part · = c) x (fun _ s => part s = c) (part · = c)

section

variable {part : σ → γ} {x : Attempt σ α} {f : α → Attempt σ β}

/-- What an operation does not touch keeps its properties. -/
theorem Fixes.ensures (h : Fixes part x) (P : γ → Prop) :
    Ensures (fun s => P (part s)) x (fun _ s => P (part s)) (fun s => P (part s)) :=
  ensures_of
    (fun s _ _ hs hx => by have hend := (h (part s)).of_ok rfl hx; rwa [hend])
    (fun s _ _ hs hx => by have hend := (h (part s)).of_error rfl hx; rwa [hend])

theorem Fixes.at (h : Fixes part x) (s : σ) :
    Ensures (· = s) x (fun _ t => part t = part s) (fun t => part t = part s) :=
  (h (part s)).mono_pre fun _ hs => congrArg part hs

@[simp]
theorem fixes_pure (a : α) : Fixes part (pure a : Attempt σ α) :=
  fun _ => ensures_pure fun _ hs => hs

@[simp]
theorem fixes_bind (hx : Fixes part x) (hf : ∀ a, Fixes part (f a)) : Fixes part (x >>= f) :=
  fun c => (hx c).bind fun a => hf a c

@[simp]
theorem fixes_map {g : α → β} (hx : Fixes part x) : Fixes part (g <$> x) := by
  rw [map_eq_pure_bind]
  exact fixes_bind hx fun _ => fixes_pure _

@[simp]
theorem fixes_get : Fixes part (get : Attempt σ σ) :=
  fun _ _ hs => hs

@[simp]
theorem fixes_modify {g : σ → σ} (h : ∀ s, part (g s) = part s) :
    Fixes part (modify g : Attempt σ PUnit) :=
  fun _ => ensures_modify fun s hs => (h s).trans hs

@[simp]
theorem fixes_throw (e : Failure) : Fixes part (throw e : Attempt σ α) :=
  fun _ _ hs => hs

@[simp]
theorem fixes_lift (c : Except Fault α) : Fixes part (liftM c : Attempt σ α) :=
  fun _ => ensures_lift (fun _ _ _ hs => hs) fun _ hs => hs

@[simp]
theorem fixes_liftFailure (c : Except Failure α) : Fixes part (liftM c : Attempt σ α) :=
  fun _ => ensures_liftFailure (fun _ _ _ hs => hs) fun _ hs => hs

@[simp]
theorem fixes_ite {c : Prop} [Decidable c] {x y : Attempt σ α} (hx : Fixes part x)
    (hy : Fixes part y) : Fixes part (if c then x else y) := by
  split
  · exact hx
  · exact hy

/-- An operation that is done only under a condition. -/
theorem fixes_when {c : Prop} [Decidable c] {x : Attempt σ Unit} {f : Unit → Attempt σ β}
    (hx : Fixes part x) (hf : ∀ u, Fixes part (f u)) :
    Fixes part (if c then x >>= f else f ()) :=
  fixes_ite (fixes_bind hx hf) (hf ())

theorem fixes_forIn {f : α → PUnit → Attempt σ (ForInStep PUnit)} (xs : List α)
    (h : ∀ a, Fixes part (f a ⟨⟩)) : Fixes part (forIn xs ⟨⟩ f) :=
  fun c => ensures_forIn xs fun a _ => h a c

theorem fixes_forM {f : α → Attempt σ PUnit} (xs : List α) (h : ∀ a, Fixes part (f a)) :
    Fixes part (xs.forM f) :=
  fun c => ensures_forM xs fun a _ => h a c

theorem fixes_firstOf {step : Attempt σ (Option α)} (h : Fixes part step) (n : Nat) :
    Fixes part (firstOf step n) :=
  fun c => ensures_firstOf (R := fun _ s => part s = c) (h c) (fun _ => Iff.rfl) n

/-- An operation on every item of a list keeps the number of items. -/
theorem fixes_each_length (y : Attempt τ Unit) : Fixes List.length (each y) := by
  intro c items hc
  induction items generalizing c with
  | nil => exact hc
  | cons t rest ih =>
    subst hc
    have hrest := ih rest.length rfl
    unfold each
    cases y t with
    | error e t' => rfl
    | ok _ t' =>
      cases hrun : each y rest with
      | ok _ rest' =>
        rw [hrun] at hrest
        exact congrArg (· + 1) hrest
      | error e rest' =>
        rw [hrun] at hrest
        exact congrArg (· + 1) hrest

/-- It is enough to look at every start. -/
theorem fixes_of_at (h : ∀ s, Ensures (· = s) x (fun _ t => part t = part s)
    (fun t => part t = part s)) : Fixes part x := by
  rintro c s rfl
  exact h s s rfl

/-- What was read may be used from then on. -/
theorem fixes_get_bind {f : σ → Attempt σ β}
    (h : ∀ s, Ensures (· = s) (f s) (fun _ t => part t = part s) (fun t => part t = part s)) :
    Fixes part (get >>= f) :=
  fixes_of_at fun s => ensures_get_bind_at (h s)

@[simp]
theorem fixes_update {g : σ → Except Fault σ} (h : ∀ s s', g s = .ok s' → part s' = part s) :
    Fixes part (update g) :=
  fun _ => ensures_update (fun s s' hs hg => (h s s' hg).trans hs) fun _ hs => hs

end

/-! ## Operations that never fail -/

/-- A run ends with an answer. -/
def Total (x : Attempt σ α) : Prop :=
  Ensures (fun _ => True) x (fun _ _ => True) fun _ => False

section

variable {x : Attempt σ α} {f : α → Attempt σ β}

/-- An operation that never fails keeps what it ensures. -/
theorem Ensures.total {P : σ → Prop} {Q : α → σ → Prop} {E E' : σ → Prop} (h : Ensures P x Q E)
    (hx : Total x) : Ensures P x Q E' :=
  ensures_of (fun _ _ _ hs hrun => h.of_ok hs hrun) fun _ _ _ _ hrun =>
    (hx.of_error trivial hrun).elim

@[simp]
theorem total_pure (a : α) : Total (pure a : Attempt σ α) :=
  ensures_pure fun _ _ => trivial

@[simp]
theorem total_bind (hx : Total x) (hf : ∀ a, Total (f a)) : Total (x >>= f) :=
  Ensures.bind hx hf

@[simp]
theorem total_get : Total (get : Attempt σ σ) :=
  fun _ _ => trivial

@[simp]
theorem total_modify (g : σ → σ) : Total (modify g : Attempt σ PUnit) :=
  fun _ _ => trivial

@[simp]
theorem total_focus {view : σ → τ} {put : σ → τ → σ} {y : Attempt τ α} (h : Total y) :
    Total (focus view put y) :=
  ensures_focus fun _ _ => h.mono (fun _ _ => trivial) (fun _ _ _ => trivial) fun _ h => h

@[simp]
theorem total_each {y : Attempt τ Unit} (h : Total y) : Total (each y) := by
  intro items _
  induction items with
  | nil => trivial
  | cons t rest ih =>
    obtain ⟨_, t', hrun, -⟩ := h.exists_ok (s := t) trivial
    unfold each
    rw [hrun]
    cases hrest : each y rest with
    | ok _ rest' => trivial
    | error e rest' =>
      rw [hrest] at ih
      exact ih.elim

end

/-! ## Operations that report no error -/

/-- A run that fails was outside its domain or broke off. -/
def FaultsOnly (x : Attempt σ α) : Prop :=
  ∀ s e s', x s = .error e s' → ∃ f, e = .fault f

section

variable {x : Attempt σ α} {f : α → Attempt σ β}

theorem FaultsOnly.of_error {s s' : σ} {e : Failure} (hx : FaultsOnly x) (h : x s = .error e s') :
    ∃ f, e = .fault f :=
  hx s e s' h

@[simp]
theorem faultsOnly_pure (a : α) : FaultsOnly (pure a : Attempt σ α) :=
  fun _ _ _ h => by cases h

@[simp]
theorem faultsOnly_get : FaultsOnly (get : Attempt σ σ) :=
  fun _ _ _ h => by cases h

@[simp]
theorem faultsOnly_modify (g : σ → σ) : FaultsOnly (modify g : Attempt σ PUnit) :=
  fun _ _ _ h => by cases h

@[simp]
theorem faultsOnly_set (t : σ) : FaultsOnly (set t : Attempt σ PUnit) :=
  fun _ _ _ h => by cases h

@[simp]
theorem faultsOnly_modifyGet (g : σ → α × σ) : FaultsOnly (modifyGet g : Attempt σ α) :=
  fun _ _ _ h => by cases h

@[simp]
theorem faultsOnly_ite {c : Prop} [Decidable c] {x y : Attempt σ α} (hx : FaultsOnly x)
    (hy : FaultsOnly y) : FaultsOnly (if c then x else y) := by
  split
  · exact hx
  · exact hy

@[simp]
theorem faultsOnly_bind (hx : FaultsOnly x) (hf : ∀ a, FaultsOnly (f a)) :
    FaultsOnly (x >>= f) := by
  intro s e s' h
  change EStateM.bind x f s = _ at h
  unfold EStateM.bind at h
  cases hrun : x s with
  | ok a t =>
    rw [hrun] at h
    exact hf a t e s' h
  | error e' t =>
    rw [hrun] at h
    cases h
    exact hx s _ _ hrun

@[simp]
theorem faultsOnly_lift (c : Except Fault α) : FaultsOnly (liftM c : Attempt σ α) := by
  intro s e s' h
  cases c with
  | ok a => cases h
  | error fault =>
    cases h
    exact ⟨fault, rfl⟩

@[simp]
theorem faultsOnly_update (g : σ → Except Fault σ) : FaultsOnly (update g) := by
  intro s e s' h
  cases hg : g s with
  | ok t => simp only [update, hg] at h; cases h
  | error fault =>
    simp only [update, hg] at h
    cases h
    exact ⟨fault, rfl⟩

@[simp]
theorem faultsOnly_focus {view : σ → τ} {put : σ → τ → σ} {y : Attempt τ α} (hy : FaultsOnly y) :
    FaultsOnly (focus view put y) := by
  intro s e s' h
  cases hrun : y (view s) with
  | ok a t => simp only [focus, hrun] at h; cases h
  | error e' t =>
    simp only [focus, hrun] at h
    cases h
    exact hy _ _ _ hrun

@[simp]
theorem faultsOnly_forM {f : α → Attempt σ PUnit} (xs : List α) (hf : ∀ a, FaultsOnly (f a)) :
    FaultsOnly (xs.forM f) := by
  induction xs with
  | nil => exact faultsOnly_pure _
  | cons a rest ih => exact faultsOnly_bind (hf a) fun _ => ih

end

end LocalSearch.Attempt
