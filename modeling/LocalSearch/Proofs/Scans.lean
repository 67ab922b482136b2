import LocalSearch.Proofs.Attempt
import LocalSearch.Proofs.Computation
import LocalSearch.Registry
/-!
# What the basic generators find

A basic generator looks at the variables in cyclic order from a random one, and at the values of a
variable, or at the variables it could exchange its value with, in the same way. Wherever it starts,
it looks at all of them.

* `Model.Answers`, `Model.PricesAt`, `Model.Prices`: the questions that a model can answer. Looking
  at a model does not change it, but it fails outside the domain of the question.
* `Finds`: a search that finds something with a property if there is such a thing.
  `scanVariables_finds`, `scanSwaps_finds` and `fromRandomVariable_finds` follow the two nested
  scans.
* `BasicGenerator.Seeks`: the candidates of a generator for a model. `changes_finds`,
  `lazyChanges_finds` and `swaps_finds`: the generators find one if there is one.
-/

namespace LocalSearch

open Attempt

variable {M V α β σ : Type}

/-! ## Questions to a model -/

section

variable [Model M V α]

/-- Every variable can be read, and has a domain the conflicts of whose values are known. -/
structure Model.Answers (m : M) : Prop where
  assignment {v : Nat} : v < Model.variableCount m → ∃ x?, Model.assignment m v = .ok x?
  values {v : Nat} : v < Model.variableCount m → ∃ values, Model.values m v = .ok values
  conflicts {v : Nat} {values : List V} {x : V} : Model.values m v = .ok values → x ∈ values →
    ∃ out, Model.conflicts m v x = .ok out

/-- The effect of every value of a variable is known. -/
def Model.PricesAt (m : M) (v : Nat) : Prop :=
  ∀ values x, Model.values m v = .ok values → x ∈ values → ∃ delta, Model.delta m v x = .ok delta

/-- The effects of all values are known, and of any two variables whether they can exchange their
values. -/
structure Model.Prices (m : M) : Prop where
  value (v : Nat) : Model.PricesAt m v
  swap {a b : Nat} : a < Model.variableCount m → b < Model.variableCount m →
    ∃ delta?, Model.swapDelta m a b = .ok delta?

/-- A swap that is evaluated names the variables it was asked for. -/
theorem SwapMove.of?_eq_some {model : M} {a b : Nat} {s : SwapMove α}
    (h : SwapMove.of? model a b = .ok (some s)) :
    s.first = a ∧ s.second = b ∧ a ≠ b ∧
      (∃ x, Model.assignment model a = .ok (some x)) ∧
      (∃ y, Model.assignment model b = .ok (some y)) ∧
      Model.swapDelta model a b = .ok (some s.delta) := by
  unfold SwapMove.of? at h
  split at h
  · cases h
  rename_i hab
  obtain ⟨x?, hx, h⟩ := bind_eq_ok_iff.1 h
  cases x? with
  | none => cases h
  | some x =>
  obtain ⟨y?, hy, h⟩ := bind_eq_ok_iff.1 h
  cases y? with
  | none => cases h
  | some y =>
  obtain ⟨delta?, hdelta, h⟩ := bind_eq_ok_iff.1 h
  cases delta? with
  | none => cases h
  | some delta =>
  cases h
  exact ⟨rfl, rfl, hab, ⟨x, hx⟩, ⟨y, hy⟩, hdelta⟩

theorem Model.exists_swap {m : M} (hanswers : Model.Answers m) (hprices : Model.Prices m)
    {a b : Nat} (ha : a < Model.variableCount m) (hb : b < Model.variableCount m) :
    ∃ s?, SwapMove.of? m a b = .ok s? := by
  unfold SwapMove.of?
  split
  · exact ⟨none, rfl⟩
  obtain ⟨x?, hx⟩ := hanswers.assignment ha
  obtain ⟨y?, hy⟩ := hanswers.assignment hb
  obtain ⟨delta?, hdelta⟩ := hprices.swap ha hb
  cases x? with
  | none => exact ⟨none, bind_eq_ok_iff.2 ⟨none, hx, rfl⟩⟩
  | some x =>
    cases y? with
    | none => exact ⟨none, bind_eq_ok_iff.2 ⟨_, hx, bind_eq_ok_iff.2 ⟨none, hy, rfl⟩⟩⟩
    | some y =>
      exact ⟨_, bind_eq_ok_iff.2
        ⟨_, hx, bind_eq_ok_iff.2 ⟨_, hy, bind_eq_ok_iff.2 ⟨delta?, hdelta, rfl⟩⟩⟩⟩

theorem mayChange_eq_true_iff {model : M} {v : Nat} {current value : V} :
    mayChange model v current value = .ok true ↔
      Model.same M value current = false ∧ Model.conflicts model v value = .ok [] := by
  unfold mayChange
  cases hsame : Model.same M value current with
  | true => simp
  | false =>
    simp only [Bool.false_eq_true, if_false, bind_eq_ok_iff, pure_eq_ok_iff, List.isEmpty_iff,
      true_and]
    constructor
    · rintro ⟨out, hout, rfl⟩
      exact hout
    · exact fun hfree => ⟨[], hfree, rfl⟩

end

/-! ## Searches -/

/-- What a search for something with a property ends with: such a thing, or nothing if there is
none. -/
def Found (Φ : β → Prop) : Option β → Prop
  | some b => Φ b
  | none => ∀ b, ¬ Φ b

theorem found_iff {Φ : β → Prop} {b? : Option β} :
    Found Φ b? ↔ (b? = none ↔ ∀ b, ¬ Φ b) ∧ ∀ b, b? = some b → Φ b := by
  cases b? with
  | none => simp [Found]
  | some b =>
    constructor
    · exact fun h => ⟨⟨fun hb => (by cases hb), fun hnone => (hnone b h).elim⟩,
        fun b' hb => by cases hb; exact h⟩
    · exact fun h => h.2 b rfl

/-- A search finds something with the property if there is such a thing, and it cannot fail under
`A`. -/
def Finds (A : Prop) (x : Attempt σ (Option β)) (Φ : β → Prop) : Prop :=
  Ensures (fun _ => True) x (fun b? _ => Found Φ b?) fun _ => ¬ A

section

variable {A : Prop} {x : Attempt σ (Option β)} {Φ Ψ : β → Prop}

theorem Finds.congr (h : Finds A x Φ) (hΦ : ∀ b, Φ b ↔ Ψ b) : Finds A x Ψ := by
  rwa [show Ψ = Φ from funext fun b => propext (hΦ b).symm]

theorem finds_none (h : ∀ b, ¬ Φ b) : Finds A (pure none : Attempt σ (Option β)) Φ :=
  ensures_pure fun _ _ => h

theorem finds_some {b : β} (h : Φ b) : Finds A (pure (some b) : Attempt σ (Option β)) Φ :=
  ensures_pure fun _ _ => h

theorem finds_lift_bind {γ : Type} {c : Except Fault γ} {f : γ → Attempt σ (Option β)}
    (hc : A → ∃ a, c = .ok a) (hf : ∀ a, c = .ok a → Finds A (f a) Φ) :
    Finds A (liftM c >>= f) Φ := by
  refine ensures_lift_bind_or (fun _ hno _ hA => ?_) hf
  obtain ⟨a, ha⟩ := hc hA
  exact hno a ha

theorem draw_ensures {p : Prop} {E : Random.Stream → Prop} (n : Nat) :
    Ensures (fun _ => p) (draw n) (fun _ _ => p) E :=
  fun _ hp => hp

theorem finds_draw_bind {n : Nat} {f : Nat → Attempt Random.Stream (Option β)}
    (hf : ∀ k, Finds A (f k) Φ) : Finds A (draw n >>= f) Φ :=
  (draw_ensures n).bind hf

theorem Finds.map {γ : Type} {f : β → γ} (h : Finds A x Φ) :
    Finds A (do let b? ← x; return b?.map f) fun c => ∃ b, Φ b ∧ c = f b := by
  refine Ensures.bind h fun b? => ensures_pure fun _ hb => ?_
  cases b? with
  | none =>
    rintro c ⟨b, hΦ, -⟩
    exact hb b hΦ
  | some b => exact ⟨b, hb, rfl⟩

/-- With nothing at the first place the rest is all there is. -/
theorem Finds.rest {Φ : Nat → β → Prop} {v : Nat} {rest : List Nat} (hv : ∀ b, ¬ Φ v b)
    (h : Finds A x fun b => ∃ v' ∈ rest, Φ v' b) : Finds A x fun b => ∃ v' ∈ v :: rest, Φ v' b :=
  h.congr fun b => by simp [hv b]

end

variable [Model M V α] {A : Prop} {m : M}

/-! ## The scans -/

/-- What a scan finds at a variable: what suits with one of at least two values of its domain, when
it has a value. -/
def Hits (m : M) (suits : Nat → V → V → Except Fault (Option β)) (v : Nat) (b : β) : Prop :=
  ∃ current values x, Model.assignment m v = .ok (some current) ∧ Model.values m v = .ok values ∧
    2 ≤ values.length ∧ x ∈ values ∧ suits v current x = .ok (some b)

theorem scanVariables_finds {suits : Nat → V → V → Except Fault (Option β)}
    (hanswers : A → Model.Answers m)
    (hsuits : A → ∀ v current values x, Model.values m v = .ok values → x ∈ values →
      ∃ b?, suits v current x = .ok b?)
    (vs : List Nat) (hvs : ∀ v ∈ vs, v < Model.variableCount m) :
    Finds A (scanVariables m suits vs) fun b => ∃ v ∈ vs, Hits m suits v b := by
  induction vs with
  | nil => exact finds_none fun b => by simp
  | cons v rest ih =>
    have ih := ih fun v' hv' => hvs v' (List.mem_cons_of_mem v hv')
    have hv := hvs v List.mem_cons_self
    unfold scanVariables
    refine finds_lift_bind (fun hA => (hanswers hA).assignment hv) fun current? hcurrent => ?_
    cases current? with
    | none =>
      refine Finds.rest (fun b => ?_) ih
      rintro ⟨current, values, x, hassigned, -⟩
      cases hcurrent.symm.trans hassigned
    | some current =>
      refine finds_lift_bind (fun hA => (hanswers hA).values hv) fun values hvalues => ?_
      split
      · rename_i hfew
        refine Finds.rest (fun b => ?_) ih
        rintro ⟨_, values', x, -, hvalues', hmany, -⟩
        cases hvalues.symm.trans hvalues'
        omega
      refine finds_draw_bind fun offset => ?_
      -- the values are tried from a random one on, which are the same values in another order
      refine finds_lift_bind (fun hA => exists_findSomeM?_eq_ok fun x hx =>
        hsuits hA v current values x hvalues (mem_rotateLeft.1 hx)) fun found? hfound => ?_
      cases found? with
      | none =>
        refine Finds.rest (fun b => ?_) ih
        rintro ⟨current', values', x, hassigned, hvalues', -, hx, hsuit⟩
        cases hcurrent.symm.trans hassigned
        cases hvalues.symm.trans hvalues'
        cases (of_findSomeM?_eq_ok_none hfound (mem_rotateLeft.2 hx)).symm.trans hsuit
      | some b =>
        obtain ⟨x, hx, hsuit⟩ := exists_of_findSomeM?_eq_ok hfound
        exact finds_some ⟨v, List.mem_cons_self, current, values, x, hcurrent, hvalues, by omega,
          mem_rotateLeft.1 hx, hsuit⟩

theorem fromRandomVariable_finds {least : Nat} {scan : List Nat → Attempt Random.Stream (Option β)}
    {Φ : Nat → β → Prop} (hfew : Model.variableCount m < least →
      ∀ v < Model.variableCount m, ∀ b, ¬ Φ v b)
    (hscan : ∀ vs, (∀ v ∈ vs, v < Model.variableCount m) →
      Finds A (scan vs) fun b => ∃ v ∈ vs, Φ v b) :
    Finds A (fromRandomVariable m least scan) fun b => ∃ v < Model.variableCount m, Φ v b := by
  have hmem (start v : Nat) :
      v ∈ (List.range (Model.variableCount m)).rotateLeft start ↔ v < Model.variableCount m :=
    mem_rotateLeft.trans List.mem_range
  unfold fromRandomVariable
  dsimp only
  split
  · rename_i hlt
    exact finds_none fun b ⟨v, hv, hΦ⟩ => hfew hlt v hv b hΦ
  · refine finds_draw_bind fun start => (hscan _ fun v hv => (hmem start v).1 hv).congr fun b => ?_
    simp only [hmem]

/-! ## What the generators seek -/

/-- A variable that has a value and a domain of at least two can take another value of the domain,
with which nothing conflicts. -/
structure Model.CanTake (m : M) (v : Nat) (x : V) : Prop where
  lt : v < Model.variableCount m
  other : ∃ current values, Model.assignment m v = .ok (some current) ∧
    Model.values m v = .ok values ∧ 2 ≤ values.length ∧ x ∈ values ∧
    Model.same M x current = false
  free : Model.conflicts m v x = .ok []

/-- The candidates of a basic generator for a model. In hill-climbing mode their effect is not
positive. -/
inductive BasicGenerator.Seeks {X : Type} [Scalar α] (m : M) :
    BasicGenerator X → Candidate V α → Prop
  | change {hillClimbing : Bool} {v : Nat} {x : V} {delta : α} (htake : Model.CanTake m v x)
    (hdelta : Model.delta m v x = .ok delta) (hmode : hillClimbing = true → ¬ 0 < delta) :
    Seeks m (.change hillClimbing) (.eager (.change ⟨v, some x, delta⟩))
  | swap {hillClimbing : Bool} {a b : Nat} {s : SwapMove α} (ha : a < Model.variableCount m)
    (hb : b < Model.variableCount m) (hswap : SwapMove.of? m a b = .ok (some s))
    (hmode : hillClimbing = true → ¬ 0 < s.delta) :
    Seeks m (.swap hillClimbing) (.eager (.swap s))
  | lazyChange {v : Nat} {x : V} (htake : Model.CanTake m v x) :
    Seeks m .lazyChange (.lazy ⟨v, x⟩)

theorem exists_mayChange (hanswers : Model.Answers m) {v : Nat} {values : List V} {current x : V}
    (hvalues : Model.values m v = .ok values) (hx : x ∈ values) :
    ∃ free, mayChange m v current x = .ok free := by
  unfold mayChange
  split
  · exact ⟨false, rfl⟩
  · obtain ⟨out, hout⟩ := hanswers.conflicts hvalues hx
    exact ⟨_, bind_eq_ok_iff.2 ⟨out, hout, rfl⟩⟩

/-- What a scan finds is what a variable can take, if more is asked only of values that it may
change to. -/
theorem hits_iff {suits : Nat → V → V → Except Fault (Option β)} {Ψ : Nat → V → β → Prop}
    (hsuits : ∀ v current x b, suits v current x = .ok (some b) ↔
      mayChange m v current x = .ok true ∧ Ψ v x b) (b : β) :
    (∃ v < Model.variableCount m, Hits m suits v b) ↔ ∃ v x, Model.CanTake m v x ∧ Ψ v x b := by
  constructor
  · rintro ⟨v, hv, current, values, x, hassigned, hvalues, hmany, hx, hsuit⟩
    obtain ⟨hmay, hΨ⟩ := (hsuits v current x b).1 hsuit
    obtain ⟨hother, hfree⟩ := mayChange_eq_true_iff.1 hmay
    exact ⟨v, x, ⟨hv, ⟨current, values, hassigned, hvalues, hmany, hx, hother⟩, hfree⟩, hΨ⟩
  · rintro ⟨v, x, ⟨hv, ⟨current, values, hassigned, hvalues, hmany, hx, hother⟩, hfree⟩, hΨ⟩
    have hmay := mayChange_eq_true_iff.2 ⟨hother, hfree⟩
    exact ⟨v, hv, current, values, x, hassigned, hvalues, hmany, hx,
      (hsuits v current x b).2 ⟨hmay, hΨ⟩⟩

section

variable [Scalar α] {X : Type} {hillClimbing : Bool} {delta : α}

omit [Model M V α] in
/-- The test of the mode lets an effect through unless it is positive in hill-climbing mode. -/
theorem not_mode_iff :
    ¬ (hillClimbing && decide (0 < delta)) = true ↔ (hillClimbing = true → ¬ 0 < delta) := by
  simp

theorem changes_finds (hanswers : A → Model.Answers m) (hprices : A → Model.Prices m) :
    Finds A (changes (α := α) hillClimbing m)
      fun c => (BasicGenerator.change (X := X) hillClimbing).Seeks m c := by
  unfold changes
  refine (fromRandomVariable_finds (by omega)
    (scanVariables_finds hanswers fun hA v current values x hvalues hx => ?_)).congr fun c => ?_
  · refine exists_bind_eq_ok (exists_mayChange (hanswers hA) hvalues hx) fun free _ => ?_
    cases free with
    | false => exact ⟨none, rfl⟩
    | true =>
      obtain ⟨delta, hdelta⟩ := (hprices hA).value v values x hvalues hx
      refine exists_bind_eq_ok ⟨_, bind_eq_ok_iff.2 ⟨delta, hdelta, rfl⟩⟩ fun move _ => ?_
      split
      · exact ⟨none, rfl⟩
      · exact ⟨_, rfl⟩
  rw [hits_iff (Ψ := fun v x c => ∃ delta, Model.delta m v x = .ok delta ∧
    (hillClimbing = true → ¬ 0 < delta) ∧ c = .eager (.change ⟨v, some x, delta⟩))]
  · constructor
    · rintro ⟨v, x, htake, delta, hdelta, hmode, rfl⟩
      exact .change htake hdelta hmode
    · intro hc
      cases hc with
      | change htake hdelta hmode => exact ⟨_, _, htake, _, hdelta, hmode, rfl⟩
  · intro v current x c
    constructor
    · intro h
      obtain ⟨free, hfree, h⟩ := bind_eq_ok_iff.1 h
      cases free with
      | false => cases h
      | true =>
      obtain ⟨move, hmove, h⟩ := bind_eq_ok_iff.1 h
      obtain ⟨delta, hdelta, hmove⟩ := bind_eq_ok_iff.1 hmove
      cases hmove
      dsimp only at h
      split at h
      · cases h
      · rename_i hmode
        cases h
        exact ⟨hfree, delta, hdelta, not_mode_iff.1 hmode, rfl⟩
    · rintro ⟨hmay, delta, hdelta, hmode, rfl⟩
      refine bind_eq_ok_iff.2 ⟨true, hmay, bind_eq_ok_iff.2
        ⟨⟨v, some x, delta⟩, bind_eq_ok_iff.2 ⟨delta, hdelta, rfl⟩, ?_⟩⟩
      dsimp only
      rw [if_neg (not_mode_iff.2 hmode)]
      rfl

theorem lazyChanges_finds (hanswers : A → Model.Answers m) :
    Finds A (lazyChanges (α := α) m) fun c => (BasicGenerator.lazyChange (X := X)).Seeks m c := by
  unfold lazyChanges
  refine (fromRandomVariable_finds (by omega)
    (scanVariables_finds hanswers fun hA v current values x hvalues hx => ?_)).congr fun c => ?_
  · refine exists_bind_eq_ok (exists_mayChange (hanswers hA) hvalues hx) fun free _ => ?_
    cases free with
    | false => exact ⟨none, rfl⟩
    | true => exact ⟨_, rfl⟩
  rw [hits_iff (Ψ := fun v x c => c = .lazy ⟨v, x⟩)]
  · constructor
    · rintro ⟨v, x, htake, rfl⟩
      exact .lazyChange htake
    · intro hc
      cases hc with
      | lazyChange htake => exact ⟨_, _, htake, rfl⟩
  · intro v current x c
    constructor
    · intro h
      obtain ⟨free, hfree, h⟩ := bind_eq_ok_iff.1 h
      cases free with
      | false => cases h
      | true =>
        cases h
        exact ⟨hfree, rfl⟩
    · rintro ⟨hmay, rfl⟩
      exact bind_eq_ok_iff.2 ⟨true, hmay, rfl⟩

/-- An exchange that a generator in some mode may propose. -/
def SwapMove.Suits (m : M) (hillClimbing : Bool) (a b : Nat) (s : SwapMove α) : Prop :=
  SwapMove.of? m a b = .ok (some s) ∧ (hillClimbing = true → ¬ 0 < s.delta)

theorem scanSwaps_finds (hanswers : A → Model.Answers m) (hprices : A → Model.Prices m)
    (vs : List Nat) (hvs : ∀ v ∈ vs, v < Model.variableCount m) :
    Finds A (scanSwaps (α := α) hillClimbing m vs) fun s => ∃ a ∈ vs,
      ∃ b < Model.variableCount m, SwapMove.Suits m hillClimbing a b s := by
  have hmem (offset b : Nat) :
      b ∈ (List.range (Model.variableCount m)).rotateLeft offset ↔ b < Model.variableCount m :=
    mem_rotateLeft.trans List.mem_range
  induction vs with
  | nil => exact finds_none fun s => by simp
  | cons a rest ih =>
    have ih := ih fun v hv => hvs v (List.mem_cons_of_mem a hv)
    have ha := hvs a List.mem_cons_self
    unfold scanSwaps
    refine finds_lift_bind (fun hA => (hanswers hA).assignment ha) fun current? hcurrent => ?_
    cases current? with
    | none =>
      refine Finds.rest (fun s => ?_) ih
      rintro ⟨b, -, hswap, -⟩
      obtain ⟨-, -, -, ⟨x, hx⟩, -⟩ := SwapMove.of?_eq_some hswap
      cases hcurrent.symm.trans hx
    | some current =>
    refine finds_draw_bind fun offset => ?_
    refine finds_lift_bind (fun hA => ?_) fun found? hfound => ?_
    · refine exists_findSomeM?_eq_ok fun b hb => ?_
      refine exists_bind_eq_ok
        (Model.exists_swap (hanswers hA) (hprices hA) ha ((hmem offset b).1 hb)) fun s? _ => ?_
      cases s? with
      | none => exact ⟨none, rfl⟩
      | some s =>
        dsimp only
        split
        · exact ⟨none, rfl⟩
        · exact ⟨_, rfl⟩
    cases found? with
    | none =>
      refine Finds.rest (fun s => ?_) ih
      rintro ⟨b, hb, hswap, hmode⟩
      have hnone := of_findSomeM?_eq_ok_none hfound ((hmem offset b).2 hb)
      rw [hswap, ok_bind] at hnone
      dsimp only at hnone
      rw [if_neg (not_mode_iff.2 hmode)] at hnone
      cases hnone
    | some s =>
      obtain ⟨b, hb, h⟩ := exists_of_findSomeM?_eq_ok hfound
      obtain ⟨s?, hswap, h⟩ := bind_eq_ok_iff.1 h
      cases s? with
      | none => cases h
      | some s' =>
        dsimp only at h
        split at h
        · cases h
        · rename_i hmode
          cases h
          exact finds_some ⟨a, List.mem_cons_self, b, (hmem offset b).1 hb, hswap,
            not_mode_iff.1 hmode⟩

theorem swaps_finds (hanswers : A → Model.Answers m) (hprices : A → Model.Prices m) :
    Finds A (swaps (α := α) hillClimbing m)
      fun c => (BasicGenerator.swap (X := X) hillClimbing).Seeks m c := by
  unfold swaps
  refine (Finds.map (fromRandomVariable_finds (fun hfew a ha s hs => ?_)
    (scanSwaps_finds hanswers hprices))).congr fun c => ?_
  · -- the two variables of an exchange are different ones
    obtain ⟨b, hb, hswap, -⟩ := hs
    obtain ⟨-, -, hab, -⟩ := SwapMove.of?_eq_some hswap
    omega
  · constructor
    · rintro ⟨s, ⟨a, ha, b, hb, hswap, hmode⟩, rfl⟩
      exact .swap ha hb hswap hmode
    · intro hc
      cases hc with
      | swap ha hb hswap hmode => exact ⟨_, ⟨_, ha, _, hb, hswap, hmode⟩, rfl⟩

end

end LocalSearch
