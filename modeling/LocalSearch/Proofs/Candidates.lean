import LocalSearch.Proofs.Scans
/-!
# What generators propose

* `MoveGenerator.Proposes`: every candidate of a generator stands in a relation to the model it was
  proposed for.
* `Candidate.Fits`: the relation in which the candidates of the three basic generators stand to
  their model. A change gives an assigned variable a value of its domain with which nothing
  conflicts, and a change with a known effect has the effect that the model computes; a swap is one
  that the model evaluates.
* `BasicGenerator.propose_finds`: a basic generator finds a candidate that it seeks if there is one.
  `BasicGenerator.Seeks.fits`: what it seeks fits.
* `Generator.proposes`: generators over the three basic ones and generators of an application
  propose what these propose. There are no generators of type `Empty`, so `Generator Empty` is the
  type of the built-in ones.
-/

namespace LocalSearch

open Attempt

variable {G X M V α β : Type} [Model M V α]

/-- Every candidate that a generator proposes for a model stands in a relation to the model. -/
def MoveGenerator.Proposes (G : Type) [MoveGenerator G M V α] (Φ : M → Candidate V α → Prop) :
    Prop :=
  ∀ model, Ensures (fun _ => True)
    (MoveGenerator.propose model : Attempt (G × Random.Stream) (Option (Candidate V α)))
    (fun c? _ => ∀ c, c? = some c → Φ model c) (fun _ => True)

omit [Model M V α] in
/-- Nothing is asked of the candidates. -/
theorem MoveGenerator.proposes_any [Model M V α] [MoveGenerator G M V α] :
    MoveGenerator.Proposes G fun (_ : M) (_ : Candidate V α) => True :=
  fun _ => ensures_of (fun _ _ _ _ _ _ _ => trivial) fun _ _ _ _ _ => trivial

/-! ## The basic generators -/

/-- A candidate of one of the basic generators for a model. -/
inductive Candidate.Fits (model : M) : Candidate V α → Prop
  | change {v : Nat} {current value : V} {values : List V} {delta : α}
    (hassigned : Model.assignment model v = .ok (some current))
    (hvalues : Model.values model v = .ok values) (hvalue : value ∈ values)
    (hfree : Model.conflicts model v value = .ok [])
    (hdelta : Model.delta model v value = .ok delta) :
    Fits model (.eager (.change ⟨v, some value, delta⟩))
  | swap {s : SwapMove α} (hswap : SwapMove.of? model s.first s.second = .ok (some s)) :
    Fits model (.eager (.swap s))
  | lazy {v : Nat} {current value : V} {values : List V}
    (hassigned : Model.assignment model v = .ok (some current))
    (hvalues : Model.values model v = .ok values) (hvalue : value ∈ values)
    (hfree : Model.conflicts model v value = .ok []) :
    Fits model (.lazy ⟨v, value⟩)

/-- A candidate that changes one variable only. -/
def Candidate.Single : Candidate V α → Prop
  | .eager (.swap _) => False
  | _ => True

variable [Scalar α]

theorem BasicGenerator.Seeks.fits {g : BasicGenerator X} {model : M} {c : Candidate V α}
    (h : g.Seeks model c) : c.Fits model := by
  cases h with
  | change htake hdelta hmode =>
    obtain ⟨current, values, hassigned, hvalues, -, hx, -⟩ := htake.other
    exact .change hassigned hvalues hx htake.free hdelta
  | swap ha hb hswap hmode =>
    -- a swap is found for the variables that were tried, so it can be asked for by its own
    obtain ⟨rfl, rfl, -⟩ := SwapMove.of?_eq_some hswap
    exact .swap hswap
  | lazyChange htake =>
    obtain ⟨current, values, hassigned, hvalues, -, hx, -⟩ := htake.other
    exact .lazy hassigned hvalues hx htake.free

/-- Only the generator of swaps changes two variables. -/
theorem BasicGenerator.Seeks.single {g : BasicGenerator X} {model : M} {c : Candidate V α}
    (h : g.Seeks model c) (hg : ∀ hillClimbing, g ≠ .swap hillClimbing) : c.Single := by
  cases h with
  | change => trivial
  | swap => exact (hg _ rfl).elim
  | lazyChange => trivial

/-- Wherever it starts, a basic generator proposes a candidate that it seeks if there is one, and
remains as it is. -/
theorem BasicGenerator.propose_finds [MoveGenerator X M V α] {A : Prop} {m : M}
    {g : BasicGenerator X} (hbasic : ∀ x, g ≠ .custom x) (random : Random.Stream)
    (hanswers : A → Model.Answers m) (hprices : A → g ≠ .lazyChange → Model.Prices m) :
    Ensures (· = (g, random)) (MoveGenerator.propose m)
      (fun c? s => s.1 = g ∧ Found (fun c => g.Seeks m c) c?) fun s => s.1 = g ∧ ¬ A := by
  have hstateless {x : Attempt Random.Stream (Option (Candidate V α))}
      (hx : Finds A x fun c => g.Seeks m c) :
      Ensures (· = (g, random)) (BasicGenerator.stateless x)
        (fun c? s => s.1 = g ∧ Found (fun c => g.Seeks m c) c?) fun s => s.1 = g ∧ ¬ A :=
    ensures_focus fun s hs => hx.mono (fun _ _ => trivial)
      (fun _ _ hfound => ⟨congrArg Prod.fst hs, hfound⟩) fun _ h => ⟨congrArg Prod.fst hs, h⟩
  show Ensures _ (BasicGenerator.propose m) _ _
  unfold BasicGenerator.propose
  refine ensures_get_bind_at ?_
  cases g with
  | change hillClimbing =>
    exact hstateless (changes_finds hanswers fun hA => hprices hA nofun)
  | swap hillClimbing =>
    exact hstateless (swaps_finds hanswers fun hA => hprices hA nofun)
  | lazyChange => exact hstateless (lazyChanges_finds hanswers)
  | custom x => exact (hbasic x rfl).elim

/-- Whatever a model answers, a basic generator that proposes something proposes what it seeks. -/
theorem BasicGenerator.propose_seeks [MoveGenerator X M V α] {g : BasicGenerator X}
    (hbasic : ∀ x, g ≠ .custom x) (m : M) (random : Random.Stream) :
    Ensures (· = (g, random)) (MoveGenerator.propose m)
      (fun c? s => s.1 = g ∧ ∀ c : Candidate V α, c? = some c → g.Seeks m c) fun s => s.1 = g :=
  (propose_finds (A := False) hbasic random False.elim False.elim).mono (fun _ h => h)
    (fun _ _ h => ⟨h.1, (found_iff.1 h.2).2⟩) fun _ h => h.1

/-! ## Generators that leave proposing to others -/

section

variable [MoveGenerator G M V α] [MoveGenerator X M V α] {Φ : M → Candidate V α → Prop}

omit [Scalar α] [Model M V α] in
theorem Selector.propose_ensures (h : MoveGenerator.Proposes G Φ) (model : M) :
    Ensures (fun _ => True)
      (Selector.propose model : Attempt (Selector G α × Random.Stream) (Option (Candidate V α)))
      (fun c? _ => ∀ c, c? = some c → Φ model c) (fun _ => True) := by
  unfold Selector.propose
  refine Ensures.bind (Q := fun _ _ => True) (ensures_modify fun _ h => h) fun _ => ?_
  refine Ensures.bind (Q := fun c? _ => ∀ c, c? = some c → Φ model c)
    (ensures_focus fun _ _ => (h model).mono_pre fun _ _ => trivial) fun c? => ?_
  dsimp only
  split
  · exact Ensures.bind (Q := fun _ _ => ∀ c, c? = some c → Φ model c)
      (ensures_modify fun _ h => h) fun _ => ensures_pure fun _ h => h
  · exact ensures_pure fun _ h => h

omit [Model M V α] in
/-- A pool proposes what its children propose. -/
theorem Pool.proposes (h : MoveGenerator.Proposes G Φ) : MoveGenerator.Proposes (Pool G α) Φ := by
  intro model
  have hnone : ∀ P : Pool G α × Random.Stream → Prop, Ensures P (pure none)
      (fun (c? : Option (Candidate V α)) _ => ∀ c, c? = some c → Φ model c) (fun _ => True) :=
    fun P => ensures_pure fun _ _ c hc => by cases hc
  show Ensures _ (Pool.propose model) _ _
  unfold Pool.propose
  refine ensures_get_bind fun (pool, random) _ => ?_
  refine Ensures.bind (Q := fun _ _ => True) (ensures_set fun _ _ => trivial) fun _ => ?_
  split
  · dsimp only
    split
    · refine Ensures.bind (Q := fun c? _ => ∀ c, c? = some c → Φ model c)
        (ensures_focus fun _ _ => (Selector.propose_ensures h model).mono_pre fun _ _ => trivial)
        fun c? => ?_
      split
      · exact Ensures.bind (Q := fun _ _ => ∀ c, c? = some c → Φ model c)
          (ensures_modify fun _ h => h) fun _ => ensures_pure fun _ h => h
      · exact ensures_pure fun _ h => h
    · exact hnone _
  · exact hnone _

theorem BasicGenerator.proposes (hfits : ∀ model c, c.Fits model → Φ model c)
    (hX : MoveGenerator.Proposes X Φ) : MoveGenerator.Proposes (BasicGenerator X) Φ := by
  refine fun model => ensures_of_at fun (g, random) _ => ?_
  have hbasic (hg : ∀ x, g ≠ .custom x) : Ensures (· = (g, random))
      (MoveGenerator.propose model : Attempt (BasicGenerator X × Random.Stream) _)
      (fun c? _ => ∀ c, c? = some c → Φ model c) (fun _ => True) :=
    (propose_seeks hg model random).mono (fun _ h => h)
      (fun _ _ h c hc => hfits model c (h.2 c hc).fits) fun _ _ => trivial
  cases g with
  | change hillClimbing => exact hbasic nofun
  | swap hillClimbing => exact hbasic nofun
  | lazyChange => exact hbasic nofun
  | custom x =>
    show Ensures _ (BasicGenerator.propose model) _ _
    unfold BasicGenerator.propose
    exact ensures_get_bind_at (ensures_focus fun _ _ => (hX model).mono_pre fun _ _ => trivial)

/-- If the candidates of the basic generators and of an application's generators stand in a relation
to their model, so do those of all generators that are built from them. -/
theorem Generator.proposes (hfits : ∀ model c, c.Fits model → Φ model c)
    (hX : MoveGenerator.Proposes X Φ) : MoveGenerator.Proposes (Generator X α) Φ := by
  intro model
  have hbasic := BasicGenerator.proposes hfits hX
  refine ensures_get_bind fun (g, random) _ => ?_
  cases g with
  | basic g => exact ensures_focus fun _ _ => (hbasic model).mono_pre fun _ _ => trivial
  | pool p => exact ensures_focus fun _ _ => (Pool.proposes hbasic model).mono_pre fun _ _ => trivial

end

/-- There is no generator of this type. -/
instance {M V α : Type} [Model M V α] : MoveGenerator Empty M V α where
  init _ := pure ()
  propose _ := pure none
  setHillClimbing _ g := g
  outline g := nomatch g

omit [Scalar α] in
theorem emptyGenerator_proposes (Φ : M → Candidate V α → Prop) :
    MoveGenerator.Proposes Empty Φ :=
  fun _ => ensures_pure fun _ _ c hc => by cases hc

/-- The built-in generators propose candidates that fit the model. -/
theorem Generator.proposes_fits :
    MoveGenerator.Proposes (Generator Empty α)
      fun model (c : Candidate V α) => c.Fits (M := M) model :=
  Generator.proposes (fun _ _ h => h) (emptyGenerator_proposes _)

end LocalSearch
