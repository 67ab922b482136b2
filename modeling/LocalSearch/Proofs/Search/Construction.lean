import LocalSearch.Proofs.Search.Optimal
/-!
# Configured searches that begin with construction

A configuration whose strategy is an orchestrator or group acceptance begins every search with
construction, with the settings of its section for construction.

* `Registry.begins_buildStrategy`: what such a configuration builds.
* `Termination.patient_ofConfig`: which configured conditions let construction finish.
* `Solver.construction_optimal`: the best state is optimal after as many passes as there are
  variables.
-/

namespace LocalSearch

/-! ## What is built -/

section

variable {S X α : Type}

/-- An orchestrator takes construction as it is, and has not restarted yet. -/
theorem Orchestrator.construction_of {construction : Construction α} {stages : List (Stage S)}
    {restartLimit : Nat} {o : Orchestrator S α}
    (h : Orchestrator.of construction stages restartLimit = .ok o) :
    o.construction = construction ∧ o.restarts = 0 := by
  unfold Orchestrator.of at h
  dsimp only at h
  split at h
  · cases h
  · split at h
    · cases h
    · cases h
      exact ⟨rfl, rfl⟩

variable [Scalar α] {r : Registry X} {props : Properties} {config : ConstructionConfig α}

theorem Registry.config_buildConstruction {construction : Construction α}
    (hconfig : ConstructionConfig.ofProperties props = .ok config)
    (h : buildConstruction props = .ok construction) : construction.config = config := by
  unfold buildConstruction at h
  rw [hconfig] at h
  cases h
  rfl

theorem Registry.construction_buildGroup {g : Group (Generator X α) α}
    (hconfig : ConstructionConfig.ofProperties props = .ok config)
    (h : r.buildGroup props = .ok g) : g.construction.config = config := by
  unfold buildGroup at h
  obtain ⟨search, -, h⟩ := bind_eq_ok_iff.1 h
  obtain ⟨general, -, h⟩ := bind_eq_ok_iff.1 h
  obtain ⟨deluge, -, h⟩ := bind_eq_ok_iff.1 h
  obtain ⟨sequence, -, h⟩ := bind_eq_ok_iff.1 h
  -- whether or not annealing takes part
  split at h
  · obtain ⟨annealing, -, h⟩ := bind_eq_ok_iff.1 h
    obtain ⟨_, -, h⟩ := bind_eq_ok_iff.1 h
    obtain ⟨construction, hconstruction, h⟩ := bind_eq_ok_iff.1 h
    cases h
    exact config_buildConstruction hconfig hconstruction
  · obtain ⟨_, -, h⟩ := bind_eq_ok_iff.1 h
    obtain ⟨construction, hconstruction, h⟩ := bind_eq_ok_iff.1 h
    cases h
    exact config_buildConstruction hconfig hconstruction

/-- An orchestrator and group acceptance begin with construction. -/
theorem Registry.begins_buildStrategy {search : SearchConfig} {t : AnyStrategy (Generator X α) α}
    (hsearch : SearchConfig.ofProperties props = .ok search)
    (hconfig : ConstructionConfig.ofProperties props = .ok config)
    (hkind : r.kind? search.strategy = some .orchestrator ∨ r.kind? search.strategy = some .group)
    (h : r.buildStrategy props = .ok t) : t.Begins config ∧ t.restarts = 0 := by
  unfold buildStrategy at h
  obtain ⟨search', hread, h⟩ := bind_eq_ok_iff.1 h
  rw [hsearch] at hread
  cases hread
  rcases hkind with hkind | hkind
  · simp only [hkind] at h
    obtain ⟨o, ho, rfl⟩ := map_eq_ok_iff.1 h
    obtain ⟨construction, stages, restartLimit, hconstruction, hstages, hof⟩ :=
      exists_of_buildOrchestrator ho
    obtain ⟨rfl, hrestarts⟩ := Orchestrator.construction_of hof
    exact ⟨⟨rotates_buildOrchestrator ho, config_buildConstruction hconfig hconstruction⟩, hrestarts⟩
  · simp only [hkind] at h
    obtain ⟨g, hg, rfl⟩ := map_eq_ok_iff.1 h
    exact ⟨construction_buildGroup hconfig hg, rfl⟩

end

theorem Termination.patient_ofConfig {c : TerminationConfig} {n : Nat} (htimeout : c.timeout = none)
    (hiters : ∀ limit, c.maxIters = some limit → n ≤ limit) : (ofConfig c).Patient n := by
  intro condition hmem
  unfold ofConfig at hmem
  rw [htimeout, Option.map_none, Option.toList_none, List.append_nil] at hmem
  rcases List.mem_append.1 hmem with hmem | hmem
  · split at hmem
    · exact .inl (List.mem_singleton.1 hmem)
    · cases hmem
  · obtain ⟨limit, hlimit, rfl⟩ := Option.map_eq_some_iff.1 (Option.mem_toList.1 hmem)
    exact .inr ⟨limit, hiters limit hlimit, rfl⟩

/-! ## Searches -/

namespace Solver

/-- The solver with other observers. -/
def observedBy {S M V α : Type} (observers : Observers V α) (s : Solver S M V α) : Solver S M V α :=
  { s with engine := s.engine.map fun e => { e with observers } }

/-- A configured search on independent penalties of any table without empty rows, with an
orchestrator or group acceptance and any seed, that no guard, stop request or time limit cuts short.
In exact arithmetic, if lower penalties count at all for construction and the iterations are not
limited to fewer than there are variables:

* pass number `k + 1` selects an offer of construction and applies it, for every variable `k`;
* there is never a restart;
* from the last of these passes to the end of the search, also if it fails, the best state is
  complete and its value is the sum of the least penalties of the rows. -/
theorem construction_optimal {K : Type} [Field K] [LinearOrder K] [IsStrictOrderedRing K]
    [Scalar.Functions K] {r : Registry Empty} {props : Properties} {search : SearchConfig}
    {config : ConstructionConfig K} {termination : TerminationConfig} {table : List (List K)}
    {entropy : UInt64} {clock : Nat → K} {threshold : Option Level}
    {s s₀ : Solver (AnyStrategy (Generator Empty K) K) (Penalty K) Nat K}
    {observers : Observers Nat K}
    (hsearch : SearchConfig.ofProperties props = .ok search)
    (hconfig : ConstructionConfig.ofProperties props = .ok config)
    (htermination : TerminationConfig.ofProperties K props = .ok (.ok termination))
    (hkind : r.kind? search.strategy = some .orchestrator ∨ r.kind? search.strategy = some .group)
    (hweight : 0 < config.valueWeight) (htimeout : termination.timeout = none)
    (hiters : ∀ limit, termination.maxIters = some limit → table.length ≤ limit)
    (htable : table ≠ []) (hrows : [] ∉ table)
    (hbuilt : ofProperties (Penalty.ofTable table) props r entropy clock threshold = .ok s)
    (hobservers : observers.Permissive) (hstart : (s.observedBy observers).start = .ok s₀) :
    (∀ k < table.length, (work^[k + 1] s₀).Constructs (k + 1)) ∧
    (∀ m w, (work^[m] s₀).worker = some w → w.engine.strategy.restarts = 0) ∧
    ∀ s', Steps (work^[table.length + 1] s₀) s' → s'.world.solution.BestOptimal table := by
  obtain ⟨⟨engine, seed⟩, hengine, hbuilt⟩ := bind_eq_ok_iff.1 hbuilt
  cases hbuilt
  have hbuilt := Engine.built_of_ofProperties hengine
  obtain ⟨e, he, hworker, hworld⟩ := worker_of_start hstart
  cases he
  obtain ⟨hbegins, hrestarts⟩ := Registry.begins_buildStrategy hsearch hconfig hkind hbuilt.strategy
  have hconditions : engine.termination = .ofConfig termination := by
    have hread := hbuilt.termination
    unfold Termination.ofProperties at hread
    rw [htermination] at hread
    exact (Except.ok.inj (Except.ok.inj hread)).symm
  refine optimal_of_starting Generator.proposes_fits
    (Generator.prepares fun _ => Attempt.total_pure _) htable hrows hweight hworker
    (stopRequested_of_start hstart)
    ⟨hbuilt.general, hobservers, ?_, ?_, hbegins, hrestarts, ?_, ?_, ?_⟩
  · exact hconditions ▸ Termination.patient_ofConfig htimeout hiters
  · exact congrArg Extensions.members hbuilt.extensions
  · rw [hworld]
    rfl
  · rw [hworld]
    rfl
  · rw [hworld]
    rfl

/-- Settings of group acceptance with changes of single variables. -/
def groupSettings : Properties :=
  .ofList [("HillClimber.Neighbours", "change"), ("Search.Strategy", "group")]

/-- Two variables with two options and one. -/
def twoRows : List (List ℚ) :=
  [[2, 1], [3]]

/-- Group acceptance takes two passes to the optimum of two rows. -/
theorem construction_optimal_group :
    ∃ s s₀ : Solver (AnyStrategy (Generator Empty ℚ) ℚ) (Penalty ℚ) Nat ℚ,
      ofProperties (Penalty.ofTable twoRows) groupSettings .builtin 0 (fun _ => 0) none = .ok s ∧
      (s.observedBy .none).start = .ok s₀ ∧ s₀.work.Constructs 1 ∧ s₀.work.work.Constructs 2 ∧
      s₀.work.work.work.world.solution.BestOptimal twoRows ∧ Penalty.optimum twoRows = 4 := by
  have hsearch : SearchConfig.ofProperties groupSettings = .ok { strategy := "group" } := rfl
  have hconfig : ConstructionConfig.ofProperties (α := ℚ) groupSettings = .ok .standard := rfl
  have htermination : TerminationConfig.ofProperties ℚ groupSettings = .ok (.ok {}) := by
    decide +kernel
  have hengine : (Engine.ofProperties (M := Penalty ℚ) (V := Nat) (α := ℚ)
      (Registry.builtin (X := Empty)) groupSettings).toOption.isSome = true := by
    decide +kernel
  cases hbuilt : Engine.ofProperties (M := Penalty ℚ) (V := Nat) (α := ℚ)
      (Registry.builtin (X := Empty)) groupSettings with
  | error failure =>
    rw [hbuilt] at hengine
    cases hengine
  | ok built =>
    have hs : ofProperties (Penalty.ofTable twoRows) groupSettings (Registry.builtin (X := Empty)) 0
        (fun _ => (0 : ℚ)) none = .ok _ := bind_eq_ok_iff.2 ⟨built, hbuilt, rfl⟩
    refine ⟨_, _, hs, rfl, ?_⟩
    have hobservers : (Observers.none : Observers Nat ℚ).Permissive := nofun
    obtain ⟨hpasses, -, hoptimal⟩ := construction_optimal hsearch hconfig htermination
      (.inr (by decide +kernel)) (by decide +kernel) rfl nofun (by decide +kernel)
      (by decide +kernel) hs hobservers rfl
    exact ⟨hpasses 0 (by decide +kernel), hpasses 1 (by decide +kernel), hoptimal _ .refl,
      by decide +kernel⟩

end Solver

end LocalSearch
