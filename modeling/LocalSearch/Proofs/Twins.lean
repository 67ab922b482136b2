import LocalSearch.Proofs.Attempt
/-!
# Two runs side by side

What can be said of one operation is said by `Attempt.Ensures`. That two operations do the same on
states that differ only in what does not matter takes both of their runs at once.

* `Attempt.SameEnd`: two runs ended in the same way.
* `Attempt.Twin`: two operations that do so from related states and leave related states again. Its
  rules follow the way in which operations are put together.
-/

namespace LocalSearch.Attempt

variable {σ τ α β : Type} {R : σ → σ → Prop}

/-- Two runs ended with the same answer or with the same failure, and left related states. -/
inductive SameEnd (R : σ → σ → Prop) :
    EStateM.Result Failure σ α → EStateM.Result Failure σ α → Prop
  | ok (a : α) {s t : σ} (h : R s t) : SameEnd R (.ok a s) (.ok a t)
  | error (e : Failure) {s t : σ} (h : R s t) : SameEnd R (.error e s) (.error e t)

/-- Run from related states, the operations end in the same way and leave related states. -/
def Twin (R : σ → σ → Prop) (x y : Attempt σ α) : Prop :=
  ∀ s t, R s t → SameEnd R (x s) (y t)

section

variable {x y : Attempt σ α} {f g : α → Attempt σ β} {s t : σ}

/-- The two ways in which both runs end. -/
theorem Twin.cases (h : Twin R x y) (hst : R s t) :
    (∃ a s' t', x s = .ok a s' ∧ y t = .ok a t' ∧ R s' t') ∨
      ∃ e s' t', x s = .error e s' ∧ y t = .error e t' ∧ R s' t' := by
  have hend := h s t hst
  generalize x s = r, y t = r' at hend
  cases hend with
  | ok a h => exact .inl ⟨a, _, _, rfl, rfl, h⟩
  | error e h => exact .inr ⟨e, _, _, rfl, rfl, h⟩

/-- Related states are left however the runs end. -/
theorem Twin.after (h : Twin R x y) (hst : R s t) : R (after x s) (after y t) := by
  obtain ⟨a, s', t', hx, hy, h'⟩ | ⟨e, s', t', hx, hy, h'⟩ := h.cases hst
  · rwa [after_of_ok hx, after_of_ok hy]
  · rwa [after_of_error hx, after_of_error hy]

@[simp]
theorem twin_pure (a : α) : Twin R (pure a : Attempt σ α) (pure a) :=
  fun _ _ h => .ok a h

theorem twin_throw (e : Failure) : Twin R (throw e : Attempt σ α) (throw e) :=
  fun _ _ h => .error e h

theorem Twin.bind (hx : Twin R x y) (hf : ∀ a, Twin R (f a) (g a)) :
    Twin R (x >>= f) (y >>= g) := by
  intro s t hst
  obtain ⟨a, s', t', hs, ht, h⟩ | ⟨e, s', t', hs, ht, h⟩ := hx.cases hst
  · rw [bind_of_ok hs, bind_of_ok ht]
    exact hf a s' t' h
  · rw [bind_of_error hs, bind_of_error ht]
    exact .error e h

/-- What depends on the state differs, as the states do. -/
theorem twin_get_bind {f g : σ → Attempt σ β} (h : ∀ s t, R s t → Twin R (f s) (g t)) :
    Twin R (get >>= f) (get >>= g) :=
  fun s t hst => h s t hst s t hst

theorem twin_set (h : R s t) : Twin R (set s : Attempt σ PUnit) (set t) :=
  fun _ _ _ => .ok _ h

theorem twin_modify {p q : σ → σ} (h : ∀ s t, R s t → R (p s) (q t)) :
    Twin R (modify p : Attempt σ PUnit) (modify q) :=
  fun s t hst => .ok _ (h s t hst)

theorem twin_modifyGet {p q : σ → α × σ}
    (h : ∀ s t, R s t → (p s).1 = (q t).1 ∧ R (p s).2 (q t).2) :
    Twin R (modifyGet p : Attempt σ α) (modifyGet q) := by
  intro s t hst
  obtain ⟨hanswer, hstate⟩ := h s t hst
  show SameEnd R (.ok (p s).1 (p s).2) (.ok (q t).1 (q t).2)
  rw [hanswer]
  exact .ok _ hstate

/-- A computation comes to the same in both runs. -/
theorem twin_lift_bind {c : Except Fault α} (h : ∀ a, c = .ok a → Twin R (f a) (g a)) :
    Twin R (liftM c >>= f) (liftM c >>= g) := by
  intro s t hst
  cases c with
  | ok a => exact h a rfl s t hst
  | error e => exact .error (.fault e) hst

/-- Both runs take the same branch. -/
theorem twin_ite {c : Prop} [Decidable c] {x' y' : Attempt σ α} (hx : Twin R x y)
    (hx' : Twin R x' y') : Twin R (if c then x else x') (if c then y else y') := by
  split
  · exact hx
  · exact hx'

/-- The same if one branch only does something before the other one. -/
theorem twin_when {c : Prop} [Decidable c] {x y : Attempt σ Unit} {f g : Unit → Attempt σ β}
    (hx : Twin R x y) (hf : ∀ u, Twin R (f u) (g u)) :
    Twin R (if c then x >>= f else f ()) (if c then y >>= g else g ()) :=
  twin_ite (hx.bind hf) (hf ())

theorem twin_update {p q : σ → Except Fault σ}
    (h : ∀ s t, R s t → (∃ s' t', p s = .ok s' ∧ q t = .ok t' ∧ R s' t') ∨
      ∃ e, p s = .error e ∧ q t = .error e) : Twin R (update p) (update q) := by
  intro s t hst
  obtain ⟨s', t', hp, hq, h'⟩ | ⟨e, hp, hq⟩ := h s t hst
  · rw [update_of_ok hp, update_of_ok hq]
    exact .ok () h'
  · simp only [update, hp, hq]
    exact .error (.fault e) hst

/-- Operations on parts that are related. -/
theorem twin_focus {Q : τ → τ → Prop} {view : σ → τ} {put : σ → τ → σ} {x y : Attempt τ α}
    (hview : ∀ s t, R s t → Q (view s) (view t))
    (hput : ∀ s t u v, R s t → Q u v → R (put s u) (put t v)) (h : Twin Q x y) :
    Twin R (focus view put x) (focus view put y) := by
  intro s t hst
  obtain ⟨a, u, v, hu, hv, h'⟩ | ⟨e, u, v, hu, hv, h'⟩ := h.cases (hview s t hst)
  · simp only [focus, hu, hv]
    exact .ok a (hput s t u v hst h')
  · simp only [focus, hu, hv]
    exact .error e (hput s t u v hst h')

theorem twin_forM {γ : Type} {f g : γ → Attempt σ PUnit} (xs : List γ)
    (h : ∀ a, Twin R (f a) (g a)) : Twin R (xs.forM f) (xs.forM g) := by
  induction xs with
  | nil => exact twin_pure _
  | cons a xs ih => exact (h a).bind fun _ => ih

theorem twin_forIn {γ : Type} {f g : γ → PUnit → Attempt σ (ForInStep PUnit)} (xs : List γ)
    (h : ∀ a u, Twin R (f a u) (g a u)) :
    Twin R (forIn xs PUnit.unit f) (forIn xs PUnit.unit g) := by
  induction xs with
  | nil => exact twin_pure _
  | cons a xs ih =>
    rw [List.forIn_cons, List.forIn_cons]
    refine (h a _).bind fun r => ?_
    cases r with
    | done u => exact twin_pure _
    | yield u => exact ih

theorem twin_firstOf {step step' : Attempt σ (Option α)} (h : Twin R step step') (n : Nat) :
    Twin R (firstOf step n) (firstOf step' n) := by
  induction n with
  | zero => exact twin_pure _
  | succ n ih =>
    unfold firstOf
    refine h.bind fun a? => ?_
    cases a? with
    | none => exact ih
    | some a => exact twin_pure _

end

end LocalSearch.Attempt
