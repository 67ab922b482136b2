import LocalSearch.Proofs.Selection.Basic
import LocalSearch.Strategy.Basic
/-!
# Generators that keep their kind

The candidates of a generator depend on what kind of generator it is, and preparing, proposing and
changing the mode do not change the kind. So whatever a strategy does with its sequence, the
candidates that it draws stay of the same kind.

* `MoveGenerator.Supplies`: generators of a kind keep it, and their candidates stand in a relation to
  the model.
* `Generator.Swapless`: built-in generators without swaps. `Generator.supplies_swapless`: each of
  their candidates changes one variable.
* `Sequence.Stocked`: a sequence whose generators are all of a kind.
* `drawCandidate_supplies`: a draw from it.
* `Heuristic.Carries`: what is known of a strategy over such a sequence.
-/

namespace LocalSearch

open Attempt

variable {G M V α : Type}

/-- Generators of the kind `I` stay so, and propose candidates in the relation `Φ` to the model. -/
structure MoveGenerator.Supplies (G : Type) [MoveGenerator G M V α] (I : G → Prop)
    (Φ : M → Candidate V α → Prop) : Prop where
  init (model : M) : Ensures I (MoveGenerator.init model : Attempt G Unit) (fun _ => I) I
  propose (model : M) : Ensures (fun s => I s.1)
    (MoveGenerator.propose model : Attempt (G × Random.Stream) (Option (Candidate V α)))
    (fun c? s => I s.1 ∧ ∀ c, c? = some c → Φ model c) (fun s => I s.1)
  setHillClimbing (enabled : Bool) {g : G} : I g → I (MoveGenerator.setHillClimbing M enabled g)

section

variable [MoveGenerator G M V α] {I : G → Prop} {Φ : M → Candidate V α → Prop}

/-- What all generators of a type propose. -/
theorem MoveGenerator.Proposes.supplies [Model M V α] (h : MoveGenerator.Proposes G Φ) :
    MoveGenerator.Supplies G (fun _ => True) Φ where
  init _ := ensures_any
  propose model := (h model).mono (fun _ _ => trivial) (fun _ _ h => ⟨trivial, h⟩) fun _ h => h
  setHillClimbing _ _ h := h

/-! ## Selectors and pools -/

namespace Selector

theorem init_supplies (hG : MoveGenerator.Supplies G I Φ) (model : M) :
    Ensures (fun s : Selector G α => I s.generator) (init model) (fun _ s => I s.generator)
      (fun s => I s.generator) := by
  unfold init
  refine Ensures.bind (Q := fun _ s => I s.generator) (ensures_modify fun _ h => h) fun _ => ?_
  exact ensures_focus fun s hs => (hG.init model).mono_pre fun g hg => hg ▸ hs

theorem propose_supplies (hG : MoveGenerator.Supplies G I Φ) (model : M) :
    Ensures (fun s : Selector G α × Random.Stream => I s.1.generator) (propose model)
      (fun c? s => I s.1.generator ∧ ∀ c, c? = some c → Φ model c)
      (fun s => I s.1.generator) := by
  unfold propose
  refine Ensures.bind (Q := fun _ s => I s.1.generator) (ensures_modify fun _ h => h) fun _ => ?_
  refine Ensures.bind (Q := fun c? s => I s.1.generator ∧ ∀ c, c? = some c → Φ model c)
    (ensures_focus fun s hs => ?_) fun c? => ?_
  · exact (hG.propose model).mono_pre fun t ht => by rw [ht]; exact hs
  dsimp only
  split
  · exact Ensures.bind (Q := fun _ s => I s.1.generator ∧ ∀ c, c? = some c → Φ model c)
      (ensures_modify fun _ h => h) fun _ => ensures_pure fun _ h => h
  · exact ensures_pure fun _ h => h

end Selector

namespace Pool

variable [Scalar α]

/-- Learning leaves the generator of a child alone. -/
theorem generator_learn (child : Selector G α) (candidate : Option (Candidate V α)) :
    (learn child candidate).generator = child.generator := by
  cases candidate with
  | none => rfl
  | some c =>
    cases c with
    | eager m => rfl
    | lazy c => rfl

/-- The pool picks as `random` says, and its children have a property. -/
def Keeps (P : Selector G α → Prop) (random : Bool) (p : Pool G α) : Prop :=
  p.random = random ∧ ∀ child ∈ p.children, P child

section Keeps

variable {P : Selector G α → Prop} {b : Bool}

omit [MoveGenerator G M V α] [Scalar α] in
theorem Keeps.setChild {p : Pool G α} (hp : p.Keeps P b) (index : Nat)
    {child : Selector G α} (hchild : P child) : (p.setChild index child).Keeps P b := by
  refine ⟨hp.1, fun c hc => ?_⟩
  rcases List.mem_or_eq_of_mem_set hc with hc | rfl
  · exact hp.2 c hc
  · exact hchild

omit [Scalar α] in
/-- Preparing a pool prepares its children. -/
theorem init_keeps {model : M}
    (hinit : Ensures P (Selector.init model : Attempt (Selector G α) Unit) (fun _ => P) P) :
    Ensures (Keeps P b) (init model) (fun _ => Keeps P b) (Keeps P b) :=
  ensures_focus fun _ hp => (ensures_each hinit).mono (fun _ h => h ▸ hp.2)
    (fun _ _ h => ⟨hp.1, h⟩) fun _ h => ⟨hp.1, h⟩

/-- A call of a pool calls one child, which then learns. -/
theorem propose_keeps {R : Option (Candidate V α) → Prop} {model : M}
    (hpropose : Ensures (fun s : Selector G α × Random.Stream => P s.1) (Selector.propose model)
      (fun c? s => P s.1 ∧ R c?) (fun s => P s.1))
    (hlearn : ∀ child (c? : Option (Candidate V α)), P child → P (learn child c?))
    (hnone : R none) :
    Ensures (fun s : Pool G α × Random.Stream => s.1.Keeps P b) (propose model)
      (fun c? s => s.1.Keeps P b ∧ R c?) (fun s => s.1.Keeps P b) := by
  unfold propose
  refine ensures_get_bind fun (pool, random) hpool => ?_
  have hidle : Ensures (fun s : Pool G α × Random.Stream => s.1 = pool) (pure none)
      (fun (c? : Option (Candidate V α)) s => s.1.Keeps P b ∧ R c?)
      (fun s => s.1.Keeps P b) := ensures_pure fun s hs => ⟨hs ▸ hpool, hnone⟩
  refine Ensures.bind (Q := fun _ s => s.1 = pool) (ensures_set fun _ _ => rfl) fun _ => ?_
  split
  · rename_i index hindex
    dsimp only
    split
    · rename_i child hchild
      refine Ensures.bind (Q := fun c? s => s.1.Keeps P b ∧ R c?)
        (ensures_focus fun s hs => ?_) fun c? => ?_
      · refine hpropose.mono (fun t ht => ht ▸ hpool.2 child (List.mem_of_getElem? hchild))
          (fun c? t h => ?_) fun t h => ?_
        · rw [hs]
          exact ⟨hpool.setChild index h.1, h.2⟩
        · rw [hs]
          exact hpool.setChild index h
      split
      · refine Ensures.bind (Q := fun _ s => s.1.Keeps P b ∧ R c?)
          (ensures_modify fun s h => ⟨?_, h.2⟩) fun _ => ensures_pure fun _ h => h
        obtain ⟨pool', random'⟩ := s
        dsimp only
        split
        · rename_i learner hlearner
          exact h.1.setChild index (hlearn _ _ (h.1.2 learner (List.mem_of_getElem? hlearner)))
        · exact h.1
      · exact ensures_pure fun _ h => h
    · exact hidle
  · exact hidle

end Keeps

/-- The children of a pool are all of a kind. -/
def Stocked (I : G → Prop) (p : Pool G α) : Prop :=
  ∀ child ∈ p.children, I child.generator

/-- A pool of children of a kind supplies what they supply. -/
theorem supplies (hG : MoveGenerator.Supplies G I Φ) :
    MoveGenerator.Supplies (Pool G α) (Stocked I) Φ where
  init model := ensures_of_at fun p hp =>
    (init_keeps (b := p.random) (Selector.init_supplies hG model)).mono
      (fun q hq => by rw [hq]; exact ⟨rfl, hp⟩) (fun _ _ hq => hq.2) fun _ hq => hq.2
  setHillClimbing enabled p hp := by
    intro child hchild
    obtain ⟨c, hc, rfl⟩ := List.mem_map.1 hchild
    exact hG.setHillClimbing enabled (hp c hc)
  propose model := ensures_of_at fun s hs =>
    (propose_keeps (b := s.1.random) (Selector.propose_supplies hG model)
      (fun child c? h => by rwa [generator_learn]) fun c hc => by cases hc).mono
      (fun t ht => by rw [ht]; exact ⟨rfl, hs⟩) (fun _ _ ht => ⟨ht.1.2, ht.2⟩) fun _ ht => ht.2

end Pool

end

/-! ## Built-in generators without swaps -/

/-- The generator does not swap. -/
def BasicGenerator.Swapless {X : Type} : BasicGenerator X → Prop
  | swap _ => False
  | _ => True

/-- Neither the generator nor a child of the pool swaps. -/
def Generator.Swapless {X : Type} : Generator X α → Prop
  | basic g => g.Swapless
  | pool p => p.Stocked BasicGenerator.Swapless

section

variable [Model M V α] [Scalar α]

/-- Each candidate of a basic generator that does not swap changes one variable. -/
theorem BasicGenerator.supplies_swapless :
    MoveGenerator.Supplies (BasicGenerator Empty) BasicGenerator.Swapless
      fun (model : M) (c : Candidate V α) => c.Fits model ∧ c.Single where
  init model := by
    show Ensures _ (BasicGenerator.init model) _ _
    unfold BasicGenerator.init
    refine ensures_get_bind fun g hg => ?_
    cases g with
    | custom x => exact x.elim
    | change _ => exact ensures_pure fun _ h => h ▸ hg
    | swap _ => exact hg.elim
    | lazyChange => exact ensures_pure fun _ h => h ▸ hg
  setHillClimbing enabled g hg := by
    cases g with
    | custom x => exact x.elim
    | change _ => exact trivial
    | swap _ => exact hg.elim
    | lazyChange => exact trivial
  propose model := by
    refine Attempt.ensures_of_at fun (g, random) hg => ?_
    have hswap (hillClimbing : Bool) : g ≠ .swap hillClimbing := fun h => by
      rw [show (g, random).1 = _ from h] at hg
      exact hg
    exact (propose_seeks (fun x => x.elim) model random).mono (fun _ h => h)
      (fun _ _ h => ⟨h.1 ▸ hg, fun c hc => ⟨(h.2 c hc).fits, (h.2 c hc).single hswap⟩⟩)
      fun _ h => h ▸ hg

/-- Each candidate of a built-in generator without swaps changes one variable. -/
theorem Generator.supplies_swapless :
    MoveGenerator.Supplies (Generator Empty α) Generator.Swapless
      fun (model : M) (c : Candidate V α) => c.Fits model ∧ c.Single where
  init model := by
    refine ensures_get_bind fun g hg => ?_
    cases g with
    | basic g =>
      refine ensures_focus fun s hs => ?_
      exact (BasicGenerator.supplies_swapless.init model).mono_pre fun t ht => ht ▸ hg
    | pool p =>
      refine ensures_focus fun s hs => ?_
      exact ((Pool.supplies BasicGenerator.supplies_swapless).init model).mono_pre
        fun t ht => ht ▸ hg
  setHillClimbing enabled g hg := by
    cases g with
    | basic g => exact BasicGenerator.supplies_swapless.setHillClimbing (M := M) enabled hg
    | pool p =>
      exact (Pool.supplies BasicGenerator.supplies_swapless).setHillClimbing (M := M) enabled hg
  propose model := by
    refine ensures_get_bind fun (g, random) hg => ?_
    cases g with
    | basic g =>
      refine ensures_focus fun s hs => ?_
      exact (BasicGenerator.supplies_swapless.propose model).mono_pre fun t ht => ht ▸ hg
    | pool p =>
      refine ensures_focus fun s hs => ?_
      exact ((Pool.supplies BasicGenerator.supplies_swapless).propose model).mono_pre
        fun t ht => ht ▸ hg

end

/-! ## Sequences -/

/-- The generators of a sequence. -/
def Sequence.generators (s : Sequence G α) : List G :=
  s.selectors.map Selector.generator

/-- The generators of a sequence are all of a kind. -/
def Sequence.Stocked (I : G → Prop) (s : Sequence G α) : Prop :=
  ∀ g ∈ s.generators, I g

section

variable {I : G → Prop} {Φ : M → Candidate V α → Prop} {s : Sequence G α}

theorem Sequence.stocked_iff : s.Stocked I ↔ ∀ x ∈ s.selectors, I x.generator :=
  List.forall_mem_map

theorem Sequence.Stocked.of_generators_eq {s' : Sequence G α} (hs : s.Stocked I)
    (h : s'.generators = s.generators) : s'.Stocked I := by
  unfold Stocked
  rw [h]
  exact hs

theorem Sequence.Stocked.set (hs : s.Stocked I) (index : Nat) {selector : Selector G α}
    (hselector : I selector.generator) :
    Stocked I { s with selectors := s.selectors.set index selector } := by
  rw [stocked_iff] at hs ⊢
  intro x hx
  rcases List.mem_or_eq_of_mem_set hx with hx | rfl
  · exact hs x hx
  · exact hselector

variable [Scalar α]

/-- Learning changes nothing but the points of selectors. -/
theorem Sequence.map_updatePoints {γ : Type} {look : Selector G α → γ}
    (hlook : ∀ x improvement, look (x.updatePoints improvement) = look x) (s : Sequence G α)
    (index : Nat) (improvement : α) :
    (s.updatePoints index improvement).selectors.map look = s.selectors.map look := by
  unfold updatePoints modifySelector
  refine List.ext_getElem? fun i => ?_
  rw [List.getElem?_map, List.getElem?_map, List.getElem?_modify]
  cases s.selectors[i]? with
  | none => rfl
  | some x =>
    split
    · exact congrArg some (hlook x improvement)
    · rfl

theorem Heuristic.selectors_improve {h h' : Heuristic G α} {method : LearningMethod}
    {index : Nat} {delta time : α} (hrun : h.improve method index delta time = .ok h') :
    h'.sequence.selectors = h.sequence.selectors := by
  obtain ⟨sequence, hlearn, himprove⟩ := bind_eq_ok_iff.1 hrun
  obtain ⟨scores, -, hlearn⟩ := bind_eq_ok_iff.1 hlearn
  cases hlearn
  cases himprove
  rfl

theorem Heuristic.generators_improve {h h' : Heuristic G α} {method : LearningMethod}
    {index : Nat} {delta time : α} (hrun : h.improve method index delta time = .ok h') :
    h'.sequence.generators = h.sequence.generators :=
  congrArg (List.map Selector.generator) (selectors_improve hrun)

theorem Heuristic.map_reward {γ : Type} {look : Selector G α → γ}
    (hlook : ∀ x improvement, look (x.updatePoints improvement) = look x) {h h' : Heuristic G α}
    {index : Nat} {delta time : α} (hrun : h.reward index delta time = .ok h') :
    h'.sequence.selectors.map look = h.sequence.selectors.map look := by
  obtain ⟨improved, himprove, hrun⟩ := bind_eq_ok_iff.1 hrun
  cases hrun
  exact (Sequence.map_updatePoints hlook _ _ _).trans
    (congrArg (List.map look) (selectors_improve himprove))

variable [MoveGenerator G M V α]

omit [Scalar α] in
theorem Sequence.setHillClimbing_stocked (hG : MoveGenerator.Supplies G I Φ) (enabled : Bool)
    (hs : s.Stocked I) : (s.setHillClimbing M enabled).Stocked I := by
  rw [stocked_iff] at hs ⊢
  intro x hx
  obtain ⟨y, hy, rfl⟩ := List.mem_map.1 hx
  exact hG.setHillClimbing enabled (hs y hy)

theorem Sequence.init_stocked (hG : MoveGenerator.Supplies G I Φ) (model : M) :
    Ensures (fun s : Sequence G α => s.Stocked I) (Sequence.init model) (fun _ s => s.Stocked I)
      (fun s => s.Stocked I) := by
  unfold Sequence.init
  refine Ensures.bind (Q := fun _ s => s.Stocked I) (ensures_focus fun s hs => ?_) fun _ => ?_
  · refine (ensures_each (Selector.init_supplies hG model)).mono (fun selectors h => ?_)
      (fun _ _ h => stocked_iff.2 h) fun _ h => stocked_iff.2 h
    rw [h]
    exact stocked_iff.1 hs
  · exact ensures_modify fun _ h => h

theorem Heuristic.init_stocked (hG : MoveGenerator.Supplies G I Φ) (model : M) :
    Ensures (fun h : Heuristic G α => h.sequence.Stocked I) (Heuristic.init model)
      (fun _ h => h.sequence.Stocked I) (fun h => h.sequence.Stocked I) := by
  unfold Heuristic.init
  refine Ensures.bind (Q := fun _ h => h.sequence.Stocked I) (ensures_focus fun h hh => ?_)
    fun _ => ensures_modify fun _ h => h
  exact (Sequence.init_stocked hG model).mono_pre fun s hs => hs ▸ hh

end

/-! ## Draws -/

open Act

variable [MoveGenerator G M V α] {I : G → Prop} {Φ : M → Candidate V α → Prop}
  {P : Solution M α → Prop}

theorem Sequence.propose_supplies (hG : MoveGenerator.Supplies G I Φ) (index : Nat) :
    Leads (fun s w => s.Stocked I ∧ P w)
      (Sequence.propose index : Act (Sequence G α) M α (Option (Candidate V α)))
      (fun c? s w => (s.Stocked I ∧ P w) ∧ ∀ c, c? = some c → Φ w.model c)
      (fun s w => s.Stocked I ∧ P w) := by
  unfold Sequence.propose
  refine leads_get_bind fun s w h => ?_
  dsimp only
  refine leads_lift_bind (fun _ _ ⟨hs, hw⟩ => by rw [hs, hw]; exact h) fun selector hselector => ?_
  have hkind : I selector.generator :=
    Sequence.stocked_iff.1 h.1 selector (List.mem_of_getElem? (fetch_eq_ok_iff.1 hselector))
  refine Attempt.ensures_focus fun t ht => Attempt.ensures_focus fun u hu => ?_
  obtain ⟨ht, hw⟩ := ht
  have hsequence : u.1 = s := by rw [hu, ht]
  have hworld : t.2.solution = w.solution := hw
  refine (Selector.propose_supplies hG w.solution.model).mono (fun x hx => hx ▸ hkind)
    (fun c? x hx => ?_) fun x hx => ?_
  · rw [hsequence, hworld]
    exact ⟨⟨h.1.set index hx.1, h.2⟩, hx.2⟩
  · rw [hsequence, hworld]
    exact ⟨h.1.set index hx, h.2⟩

variable [Scalar α]

omit [MoveGenerator G M V α] in
theorem Sequence.pick_stocked (chain : List Nat) :
    Leads (fun s w => s.Stocked I ∧ P w) (Sequence.pick chain : Act (Sequence G α) M α Nat)
      (fun _ s w => s.Stocked I ∧ P w) (fun s w => s.Stocked I ∧ P w) := by
  unfold Sequence.pick
  refine leads_get_bind fun s w h => ?_
  dsimp only
  refine leads_lift_bind (fun _ _ ⟨hs, hw⟩ => by rw [hs, hw]; exact h) fun (picked, ended, random) _ => ?_
  refine Leads.bind (Q := fun _ s w => s.Stocked I ∧ P w) (leads_set fun _ _ _ => h) fun _ => ?_
  exact leads_report_bind fun _ => leads_pure fun _ _ h => h

/-- A draw leaves the solution alone and the generators of their kind, and its candidate stands in
the relation to the model. -/
theorem drawCandidate_supplies (hG : MoveGenerator.Supplies G I Φ) :
    Leads (fun h w => h.sequence.Stocked I ∧ P w)
      (drawCandidate : Act (Heuristic G α) M α (Drawn V α))
      (fun d h w => (h.sequence.Stocked I ∧ P w) ∧ ∀ i c, d = .candidate i c → Φ w.model c)
      (fun h w => h.sequence.Stocked I ∧ P w) := by
  have hsequence {β : Type} {x : Act (Sequence G α) M α β} {Q : β → Solution M α → Prop}
      (hx : Leads (fun s w => s.Stocked I ∧ P w) x
        (fun b s w => (s.Stocked I ∧ P w) ∧ Q b w) (fun s w => s.Stocked I ∧ P w)) :
      Leads (fun h w => h.sequence.Stocked I ∧ P w) (Heuristic.onSequence x)
        (fun b h w => (h.sequence.Stocked I ∧ P w) ∧ Q b w)
        (fun h w => h.sequence.Stocked I ∧ P w) :=
    leads_within fun _ _ h => hx.at h
  unfold drawCandidate Heuristic.draw
  simp only [bind_assoc, pure_bind]
  refine leads_part_bind_any fun h => ?_
  refine Leads.bind (hsequence (Q := fun _ _ => True)
    ((Sequence.pick_stocked _).mono_post fun _ _ _ h => ⟨h, trivial⟩)) fun index => ?_
  refine Leads.bind ((hsequence (Q := fun c? w => ∀ c, c? = some c → Φ w.model c)
    (Sequence.propose_supplies hG index)).mono_pre fun _ _ h => h.1) fun c? => ?_
  cases c? with
  | none =>
    refine Leads.bind (Q := fun _ h w => h.sequence.Stocked I ∧ P w)
      (leads_change fun _ _ h => h.1) fun _ => ?_
    exact leads_pure fun _ _ h => ⟨h, fun _ _ hd => by cases hd⟩
  | some c =>
    refine leads_pure fun _ _ h => ⟨h.1, fun i c' hd => ?_⟩
    cases hd
    exact h.2 c rfl

/-! ## What follows a draw -/

omit [Scalar α] [MoveGenerator G M V α] in
theorem spares_update {γ : Type} {look : Heuristic G α → γ}
    {f : Heuristic G α → Except Fault (Heuristic G α)}
    (hf : ∀ h h', f h = .ok h' → look h' = look h) :
    Spares look (onPart (Attempt.update f) : Act (Heuristic G α) M α Unit) := by
  intro c
  refine Attempt.ensures_focus fun t ht => ?_
  subst ht
  refine Attempt.ensures_update (fun h h' hh hrun => ?_) fun h hh => ?_
  · subst hh
    exact hf _ h' hrun
  · subst hh
    rfl

omit [MoveGenerator G M V α] in
/-- A reward changes nothing but the points of selectors. -/
theorem spares_rewardMove_map {γ : Type} {look : Selector G α → γ}
    (hlook : ∀ x improvement, look (x.updatePoints improvement) = look x) (index : Nat)
    (delta : α) :
    Spares (fun h => h.sequence.selectors.map look)
      (rewardMove index delta : Act (Heuristic G α) M α Unit) :=
  Attempt.fixes_bind (fun _ _ h => h) fun _ => spares_update fun _ _ => Heuristic.map_reward hlook

omit [MoveGenerator G M V α] in
/-- A reward leaves the generators alone. -/
@[simp]
theorem spares_rewardMove (index : Nat) (delta : α) :
    Spares (·.sequence.generators) (rewardMove index delta : Act (Heuristic G α) M α Unit) :=
  spares_rewardMove_map (fun _ _ => rfl) index delta

omit [Scalar α] [MoveGenerator G M V α] in
/-- A report changes nothing of the heuristic. -/
theorem spares_any_reportAccept {γ : Type} {look : Heuristic G α → γ} (strategy : String)
    (index : Nat) (delta : α) (more : Unit → List (String × FieldValue α)) :
    Spares look (reportAccept strategy index delta more : Act (Heuristic G α) M α Unit) := by
  unfold reportAccept
  exact Attempt.fixes_bind (fun _ _ h => h) fun _ => Attempt.fixes_modify fun _ => rfl

omit [Scalar α] [MoveGenerator G M V α] in
@[simp]
theorem spares_reportAccept (strategy : String) (index : Nat) (delta : α)
    (more : Unit → List (String × FieldValue α)) :
    Spares (·.sequence.generators)
      (reportAccept strategy index delta more : Act (Heuristic G α) M α Unit) :=
  spares_any_reportAccept strategy index delta more

/-! ## Strategies over a heuristic -/

section

variable {S β : Type} {view : S → Heuristic G α} {put : S → Heuristic G α → S} {F : S → Prop}

/-- What is known of a strategy says of its heuristic that the generators are of a kind, and nothing
else. -/
structure Heuristic.Carries (view : S → Heuristic G α) (put : S → Heuristic G α → S)
    (I : G → Prop) (F : S → Prop) : Prop where
  stocked {t : S} : F t → (view t).sequence.Stocked I
  put {t : S} {h : Heuristic G α} : F t → h.sequence.Stocked I → F (put t h)

omit [Scalar α] [MoveGenerator G M V α] in
/-- What leaves the generators and the solution alone keeps what is known of the strategy. -/
theorem Heuristic.Carries.spares (hF : Heuristic.Carries view put I F)
    {x : Act (Heuristic G α) M α β} (hspares : Spares (·.sequence.generators) x)
    (hquiet : Quiet x) :
    Leads (fun t s => F t ∧ P s) (within view put x) (fun _ t s => F t ∧ P s)
      (fun t s => F t ∧ P s) := by
  refine leads_within fun t s ⟨ht, hs⟩ => ?_
  have hstocked := (hspares.leads fun gs => ∀ g ∈ gs, I g).at (t := view t) (s := s) (hF.stocked ht)
  have hsolution := (ensures_quiet (P := P) (E := P) hquiet fun _ h => h).leads.at (t := view t) hs
  exact (hstocked.and hsolution).mono (fun _ _ h => h) (fun _ _ _ h => ⟨hF.put ht h.1, h.2⟩)
    fun _ _ h => ⟨hF.put ht h.1, h.2⟩

omit [Scalar α] [MoveGenerator G M V α] in
theorem Heuristic.Carries.change (hF : Heuristic.Carries view put I F)
    {f : Heuristic G α → Heuristic G α}
    (hf : ∀ h, (f h).sequence.generators = h.sequence.generators) :
    Leads (fun t s => F t ∧ P s) (within view put (Act.change f) : Act S M α Unit)
      (fun _ t s => F t ∧ P s) (fun t s => F t ∧ P s) :=
  hF.spares (Attempt.fixes_modify fun _ => hf _) (quiet_change _)

theorem Heuristic.Carries.draw (hF : Heuristic.Carries view put I F)
    (hG : MoveGenerator.Supplies G I Φ) :
    Leads (fun t s => F t ∧ P s) (within view put drawCandidate : Act S M α (Drawn V α))
      (fun d t s => (F t ∧ P s) ∧ ∀ i c, d = .candidate i c → Φ s.model c)
      (fun t s => F t ∧ P s) :=
  leads_within fun _ _ ⟨ht, hs⟩ => ((drawCandidate_supplies hG).mono (fun _ _ h => h)
    (fun _ _ _ hh => ⟨⟨hF.put ht hh.1.1, hh.1.2⟩, hh.2⟩)
    fun _ _ hh => ⟨hF.put ht hh.1, hh.2⟩).at ⟨hF.stocked ht, hs⟩

theorem Heuristic.Carries.init (hF : Heuristic.Carries view put I F)
    (hG : MoveGenerator.Supplies G I Φ) (model : M) :
    Leads (fun t s => F t ∧ P s)
      (within view put (onPart (Heuristic.init model)) : Act S M α Unit)
      (fun _ t s => F t ∧ P s) (fun t s => F t ∧ P s) := by
  refine leads_within fun t s ⟨ht, hs⟩ => Attempt.ensures_focus fun u hu => ?_
  obtain ⟨hu, hs'⟩ := hu
  refine (Heuristic.init_stocked hG model).mono (fun x hx => ?_) (fun _ x hx => ?_) fun x hx => ?_
  · rw [hx, hu]
    exact hF.stocked ht
  · exact ⟨hF.put ht hx, hs'.symm ▸ hs⟩
  · exact ⟨hF.put ht hx, hs'.symm ▸ hs⟩

end

end LocalSearch
