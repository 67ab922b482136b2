import LocalSearch.Config.Section
import LocalSearch.Engine
import LocalSearch.Proofs.Computation
import LocalSearch.Proofs.Config.Duration
import LocalSearch.Proofs.Config.Nesting
import LocalSearch.Proofs.Dictionary
/-!
# What reading a configuration can end in

Every reading of a property set ends in a value or an error, but for one value of one key: a time
limit of `2 ^ 64` seconds and more is a fault, unless another key is in error.

* `Properties.withoutTimeLimit`: a set less its time limit; what is read of it apart from the time
  limit is the same.
* `Properties.Overlong`: the time limit is `2 ^ 64` seconds and more.
* `Section.Accepted`: the settings pass the checks of their sections.
* `FaultsWhenOverlong`: the outcomes of a reading that looks at the time limit last.
* `faults_iff_overlong`: which readings of a configuration are faults.
-/

namespace LocalSearch

variable {X α : Type}

/-! ## Leaving out the time limit -/

namespace Properties

/-- The set without a time limit. -/
def withoutTimeLimit (props : Properties) : Properties :=
  props.filterKeys fun key => key != Key.timeOut

/-- The time limit is a number from `2 ^ 64` upwards, infinity included. -/
def Overlong (props : Properties) : Prop :=
  ∃ seconds : Float, props.number? Key.timeOut = .ok (some seconds) ∧
    18446744073709551616 ≤ seconds

variable {props : Properties} {key : String}

theorem get?_withoutTimeLimit (h : key ≠ Key.timeOut) :
    props.withoutTimeLimit.get? key = props.get? key := by
  rw [withoutTimeLimit, Dictionary.get?_filterKeys]
  simp [h]

theorem get?_withoutTimeLimit_timeOut : props.withoutTimeLimit.get? Key.timeOut = none := by
  rw [withoutTimeLimit, Dictionary.get?_filterKeys]
  simp

theorem read_withoutTimeLimit {β : Type} (h : key ≠ Key.timeOut) (read? : String → Option β)
    (expected : String) :
    props.withoutTimeLimit.read read? expected key = props.read read? expected key := by
  unfold read
  rw [get?_withoutTimeLimit h]

theorem require_withoutTimeLimit (h : key ≠ Key.timeOut) :
    props.withoutTimeLimit.require key = props.require key := by
  unfold require
  rw [get?_withoutTimeLimit h]

theorem flag_withoutTimeLimit (h : key ≠ Key.timeOut) (default : Bool) :
    props.withoutTimeLimit.flag key default = props.flag key default := by
  unfold flag
  rw [read_withoutTimeLimit h]

theorem integer_withoutTimeLimit (h : key ≠ Key.timeOut) (default : Int) :
    props.withoutTimeLimit.integer key default = props.integer key default := by
  unfold integer
  rw [read_withoutTimeLimit h]

theorem count?_withoutTimeLimit (h : key ≠ Key.timeOut) :
    props.withoutTimeLimit.count? key = props.count? key :=
  read_withoutTimeLimit h _ _

theorem count_withoutTimeLimit (h : key ≠ Key.timeOut) (default : Nat) :
    props.withoutTimeLimit.count key default = props.count key default := by
  unfold count
  rw [count?_withoutTimeLimit h]

variable [Scalar α]

theorem number?_withoutTimeLimit (h : key ≠ Key.timeOut) :
    (props.withoutTimeLimit.number? key : Except ConfigError (Option α)) = props.number? key :=
  read_withoutTimeLimit h _ _

theorem number_withoutTimeLimit (h : key ≠ Key.timeOut) (default : α) :
    props.withoutTimeLimit.number key default = props.number key default := by
  unfold number
  rw [number?_withoutTimeLimit h]

end Properties

/-! ## Sections without a time limit -/

section

open Properties

variable (props : Properties)

@[simp]
theorem GeneralConfig.ofProperties_withoutTimeLimit :
    ofProperties props.withoutTimeLimit = ofProperties props := by
  unfold ofProperties
  simp (disch := decide) only [count?_withoutTimeLimit, integer_withoutTimeLimit,
    flag_withoutTimeLimit]

@[simp]
theorem SequenceConfig.ofProperties_withoutTimeLimit :
    ofProperties props.withoutTimeLimit = ofProperties props := by
  unfold ofProperties
  simp (disch := decide) only [flag_withoutTimeLimit, integer_withoutTimeLimit]

@[simp]
theorem HillClimberConfig.ofProperties_withoutTimeLimit :
    ofProperties props.withoutTimeLimit = ofProperties props := by
  unfold ofProperties
  simp (disch := decide) only [count_withoutTimeLimit, flag_withoutTimeLimit, get?_withoutTimeLimit]

@[simp]
theorem SearchConfig.ofProperties_withoutTimeLimit :
    ofProperties props.withoutTimeLimit = ofProperties props := by
  unfold ofProperties text
  simp (disch := decide) only [count_withoutTimeLimit, flag_withoutTimeLimit,
    integer_withoutTimeLimit, get?_withoutTimeLimit]

variable [Scalar α]

@[simp]
theorem DelugeConfig.ofProperties_withoutTimeLimit :
    (ofProperties props.withoutTimeLimit : Except ConfigError (DelugeConfig α)) =
      ofProperties props := by
  unfold ofProperties readCoolRate
  simp (disch := decide) only [number?_withoutTimeLimit, number_withoutTimeLimit,
    get?_withoutTimeLimit]

@[simp]
theorem AnnealingConfig.ofProperties_withoutTimeLimit :
    (ofProperties props.withoutTimeLimit : Except ConfigError (AnnealingConfig α)) =
      ofProperties props := by
  unfold ofProperties derivable
  simp (disch := decide) only [number?_withoutTimeLimit, number_withoutTimeLimit,
    flag_withoutTimeLimit, get?_withoutTimeLimit]

@[simp]
theorem ConstructionConfig.ofProperties_withoutTimeLimit :
    (ofProperties props.withoutTimeLimit : Except ConfigError (ConstructionConfig α)) =
      ofProperties props := by
  unfold ofProperties
  simp (disch := decide) only [count_withoutTimeLimit, number_withoutTimeLimit]

end

/-! ## Building a strategy -/

namespace Registry

open Properties

variable [Scalar α] (props : Properties)

theorem factory?_builtin_ne_custom (key : String)
    (make : Properties → Except SearchError X) : builtin.factory? key ≠ some (.custom make) := by
  intro h
  have hmem := mem_of_factory? h
  simp [builtin] at hmem

theorem buildBasic_withoutTimeLimit (key : String) :
    (builtin : Registry X).buildBasic props.withoutTimeLimit key =
      (builtin : Registry X).buildBasic props key := by
  unfold buildBasic
  split
  · rfl
  · rfl
  · rfl
  · rfl
  · rfl
  · rename_i make h
    exact absurd h (factory?_builtin_ne_custom key make)

theorem buildPool_withoutTimeLimit :
    ((builtin : Registry X).buildPool props.withoutTimeLimit :
        Except SearchError (Pool (BasicGenerator X) α)) =
      (builtin : Registry X).buildPool props := by
  have hbasic : (builtin : Registry X).buildBasic props.withoutTimeLimit =
      (builtin : Registry X).buildBasic props := funext (buildBasic_withoutTimeLimit props)
  unfold buildPool
  rw [require_withoutTimeLimit (by decide), HillClimberConfig.ofProperties_withoutTimeLimit, hbasic]

theorem buildSelectors_withoutTimeLimit (spec : String) :
    ((builtin : Registry X).buildSelectors props.withoutTimeLimit spec :
        Except SearchError (List (Selector (Generator X α) α))) =
      (builtin : Registry X).buildSelectors props spec := by
  have hbuild : ((builtin : Registry X).buildGenerator props.withoutTimeLimit :
      String → Except SearchError (Generator X α)) = (builtin : Registry X).buildGenerator props := by
    funext key
    unfold buildGenerator
    rw [buildPool_withoutTimeLimit, buildBasic_withoutTimeLimit]
  unfold buildSelectors
  rw [hbuild]

theorem buildStrategy_withoutTimeLimit :
    ((builtin : Registry X).buildStrategy props.withoutTimeLimit :
        Except SearchError (AnyStrategy (Generator X α) α)) =
      (builtin : Registry X).buildStrategy props := by
  unfold buildStrategy buildKind buildOrchestrator buildGroup buildSimulatedAnnealing
    buildGreatDeluge buildHillClimbing buildConstruction buildSequence
  simp only [GeneralConfig.ofProperties_withoutTimeLimit,
    SequenceConfig.ofProperties_withoutTimeLimit, HillClimberConfig.ofProperties_withoutTimeLimit,
    SearchConfig.ofProperties_withoutTimeLimit, DelugeConfig.ofProperties_withoutTimeLimit,
    AnnealingConfig.ofProperties_withoutTimeLimit,
    ConstructionConfig.ofProperties_withoutTimeLimit, buildSelectors_withoutTimeLimit]

end Registry

/-! ## Readings of the time limit -/

/-- A reading of a set is a fault exactly if the time limit is overlong and the set has a reading
without it. -/
def FaultsWhenOverlong {ε β : Type} (read : Properties → Except ε (Except Fault β))
    (props : Properties) : Prop :=
  ∀ f, read props = .ok (.error f) ↔
    f = .durationRange ∧ props.Overlong ∧ ∃ b, read props.withoutTimeLimit = .ok (.ok b)

namespace FaultsWhenOverlong

variable {ε β γ : Type} {props : Properties}

/-- What comes first may be in error, but does not depend on the time limit. -/
theorem bind {first : Properties → Except ε γ} {rest : γ → Properties → Except ε (Except Fault β)}
    (hfirst : first props.withoutTimeLimit = first props)
    (h : ∀ a, FaultsWhenOverlong (rest a) props) :
    FaultsWhenOverlong (fun p => first p >>= fun a => rest a p) props := by
  intro f
  show (first props >>= _) = _ ↔ _ ∧ _ ∧ ∃ b, (first props.withoutTimeLimit >>= _) = _
  rw [hfirst]
  cases first props with
  | error e => simp [Bind.bind, Except.bind]
  | ok a => exact h a f

theorem map {read : Properties → Except ε (Except Fault β)} (h : FaultsWhenOverlong read props)
    (g : β → γ) : FaultsWhenOverlong (fun p => read p >>= fun b => pure (b.map g)) props := by
  have houtcome : ∀ p x, (read p >>= fun b => pure (b.map g)) = .ok x ↔
      ∃ b, read p = .ok b ∧ b.map g = x := fun p x => by
    rw [bind_eq_ok_iff]
    simp only [pure_eq_ok_iff]
  have hvalue : ∀ b : Except Fault β, (∃ c, b.map g = .ok c) ↔ ∃ a, b = .ok a := fun b => by
    cases b <;> simp [Except.map]
  intro f
  simp only [houtcome, map_eq_error_iff, exists_eq_right]
  rw [h f]
  refine and_congr_right fun _ => and_congr_right fun _ => ?_
  constructor
  · rintro ⟨a, ha⟩
    exact ⟨g a, .ok a, ha, rfl⟩
  · rintro ⟨c, b, hb, hc⟩
    obtain ⟨a, rfl⟩ := (hvalue b).1 ⟨c, hc⟩
    exact ⟨a, hb⟩

end FaultsWhenOverlong

/-- A missing time limit counts as a negative one. -/
theorem Properties.overlong_iff {props : Properties} {seconds : Float}
    (h : props.number Key.timeOut (-1.0) = .ok seconds) :
    props.Overlong ↔ 18446744073709551616 ≤ seconds := by
  obtain ⟨seconds?, hread, hseconds⟩ := bind_eq_ok_iff.1 h
  rw [pure_eq_ok_iff] at hseconds
  unfold Overlong
  rw [hread]
  cases seconds? with
  | none =>
    have hsmall : ¬(18446744073709551616 : Float) ≤ -1.0 := by decide +kernel
    simpa [← hseconds] using hsmall
  | some seconds' => simp [← hseconds]

theorem Properties.not_overlong_of_error {props : Properties} {e : ConfigError}
    (h : props.number Key.timeOut (-1.0 : Float) = .error e) : ¬props.Overlong := by
  rintro ⟨seconds, hread, -⟩
  unfold number at h
  rw [hread] at h
  cases h

theorem Properties.number_timeOut_withoutTimeLimit (props : Properties) :
    props.withoutTimeLimit.number Key.timeOut (-1.0 : Float) = .ok (-1.0) := by
  unfold number number? read
  rw [get?_withoutTimeLimit_timeOut]
  rfl

theorem TerminationConfig.faultsWhenOverlong (props : Properties) :
    FaultsWhenOverlong (TerminationConfig.ofProperties Float) props := by
  intro f
  have hmissing : readTimeout (-1.0 : Float) = .ok none := by
    unfold readTimeout
    rw [if_neg]
    decide +kernel
  unfold TerminationConfig.ofProperties
  simp (disch := decide) only [Properties.integer_withoutTimeLimit,
    Properties.flag_withoutTimeLimit, Properties.number_timeOut_withoutTimeLimit]
  cases props.integer Key.maxIters (-1) with
  | error e => simp [Bind.bind, Except.bind]
  | ok maxIters =>
    cases hnumber : props.number Key.timeOut (-1.0 : Float) with
    | error e => simp [Properties.not_overlong_of_error hnumber, Bind.bind, Except.bind]
    | ok seconds =>
      cases props.flag Key.stopWhenComplete false with
      | error e => simp [Bind.bind, Except.bind]
      | ok stopWhenComplete =>
        rw [Properties.overlong_iff hnumber]
        simp only [ok_bind, pure_eq_ok_iff, map_eq_error_iff, readTimeout_eq_error_iff, hmissing]
        exact ⟨fun h => ⟨h.1, h.2, _, rfl⟩, fun h => ⟨h.1, h.2.1⟩⟩

/-! ## Checks -/

theorem DelugeConfig.validate_of_ofProperties [Scalar α] {props : Properties} {c : DelugeConfig α}
    (h : ofProperties props = .ok c) : c.validate = .ok () := by
  obtain ⟨coolRate, -, h⟩ := bind_eq_ok_iff.1 h
  obtain ⟨upper, -, h⟩ := bind_eq_ok_iff.1 h
  obtain ⟨lower, -, h⟩ := bind_eq_ok_iff.1 h
  obtain ⟨_, hvalid, h⟩ := bind_eq_ok_iff.1 h
  cases h
  exact hvalid

theorem AnnealingConfig.validate_of_ofProperties [Scalar α] {props : Properties}
    {c : AnnealingConfig α} (h : ofProperties props = .ok c) : c.validate = .ok () := by
  obtain ⟨temperature, -, h⟩ := bind_eq_ok_iff.1 h
  obtain ⟨coolingRate, -, h⟩ := bind_eq_ok_iff.1 h
  obtain ⟨reheatRate, -, h⟩ := bind_eq_ok_iff.1 h
  obtain ⟨tempLength, -, h⟩ := bind_eq_ok_iff.1 h
  obtain ⟨reheatLength, -, h⟩ := bind_eq_ok_iff.1 h
  obtain ⟨restoreLength, -, h⟩ := bind_eq_ok_iff.1 h
  obtain ⟨stochastic, -, h⟩ := bind_eq_ok_iff.1 h
  obtain ⟨relative, -, h⟩ := bind_eq_ok_iff.1 h
  obtain ⟨_, hvalid, h⟩ := bind_eq_ok_iff.1 h
  cases h
  exact hvalid

theorem SearchConfig.validate_of_ofProperties {props : Properties} {c : SearchConfig}
    (h : ofProperties props = .ok c) : c.validate = .ok () := by
  obtain ⟨hillClimbing, -, h⟩ := bind_eq_ok_iff.1 h
  obtain ⟨deluge, -, h⟩ := bind_eq_ok_iff.1 h
  obtain ⟨annealing, -, h⟩ := bind_eq_ok_iff.1 h
  obtain ⟨restartLimit, -, h⟩ := bind_eq_ok_iff.1 h
  obtain ⟨nextOnReheat, -, h⟩ := bind_eq_ok_iff.1 h
  obtain ⟨alterBound, -, h⟩ := bind_eq_ok_iff.1 h
  obtain ⟨_, hvalid, h⟩ := bind_eq_ok_iff.1 h
  cases h
  exact hvalid

theorem SolverConfig.validate_of_ofProperties [Scalar α] {props : Properties} {c : SolverConfig α}
    (h : ofProperties props = .ok (.ok c)) :
    c.deluge.validate = .ok () ∧ c.annealing.validate = .ok () ∧ c.search.validate = .ok () := by
  obtain ⟨general, -, h⟩ := bind_eq_ok_iff.1 h
  obtain ⟨sequence, -, h⟩ := bind_eq_ok_iff.1 h
  obtain ⟨hillClimber, -, h⟩ := bind_eq_ok_iff.1 h
  obtain ⟨deluge, hdeluge, h⟩ := bind_eq_ok_iff.1 h
  obtain ⟨annealing, hannealing, h⟩ := bind_eq_ok_iff.1 h
  obtain ⟨search, hsearch, h⟩ := bind_eq_ok_iff.1 h
  obtain ⟨construction, -, h⟩ := bind_eq_ok_iff.1 h
  obtain ⟨termination, -, h⟩ := bind_eq_ok_iff.1 h
  cases termination with
  | error f => cases h
  | ok termination =>
    cases h
    exact ⟨DelugeConfig.validate_of_ofProperties hdeluge,
      AnnealingConfig.validate_of_ofProperties hannealing,
      SearchConfig.validate_of_ofProperties hsearch⟩

/-! ## All readings -/

theorem Termination.faultsWhenOverlong (props : Properties) :
    FaultsWhenOverlong (Termination.ofProperties Float) props := by
  have h := (TerminationConfig.faultsWhenOverlong props).map ofConfig
  simp only [bind_pure_comp] at h
  exact h

theorem SolverConfig.faultsWhenOverlong (props : Properties) :
    FaultsWhenOverlong (SolverConfig.ofProperties (α := Float)) props := by
  refine .bind (GeneralConfig.ofProperties_withoutTimeLimit props) fun general => ?_
  refine .bind (SequenceConfig.ofProperties_withoutTimeLimit props) fun sequence => ?_
  refine .bind (HillClimberConfig.ofProperties_withoutTimeLimit props) fun hillClimber => ?_
  refine .bind (DelugeConfig.ofProperties_withoutTimeLimit props) fun deluge => ?_
  refine .bind (AnnealingConfig.ofProperties_withoutTimeLimit props) fun annealing => ?_
  refine .bind (SearchConfig.ofProperties_withoutTimeLimit props) fun search => ?_
  refine .bind (ConstructionConfig.ofProperties_withoutTimeLimit props) fun construction => ?_
  exact (TerminationConfig.faultsWhenOverlong props).map _

/-- Four readings in a row, of which only the last one may be a fault. -/
theorem Engine.outcome_iff {β γ δ : Type} {general : Except ConfigError γ}
    {strategy : Except SearchError δ} {termination : Except ConfigError (Except Fault Termination)}
    {build : γ → δ → Termination → β} {x : Except Failure β}
    (hx : x = do
      let general ← general
      let strategy ← strategy
      let termination ← termination
      let termination ← termination
      return build general strategy termination) :
    (∀ f, x = .error (.fault f) ↔
      (∃ c, general = .ok c) ∧ (∃ s, strategy = .ok s) ∧ termination = .ok (.error f)) ∧
    ((∃ b, x = .ok b) ↔
      (∃ c, general = .ok c) ∧ (∃ s, strategy = .ok s) ∧ ∃ t, termination = .ok (.ok t)) := by
  subst hx
  cases general with
  | error e => exact ⟨fun f => ⟨nofun, nofun⟩, ⟨nofun, nofun⟩⟩
  | ok c =>
    cases strategy with
    | error e => exact ⟨fun f => ⟨nofun, nofun⟩, ⟨nofun, nofun⟩⟩
    | ok s =>
      cases termination with
      | error e => exact ⟨fun f => ⟨nofun, nofun⟩, ⟨nofun, nofun⟩⟩
      | ok t =>
        cases t with
        | error f' =>
          refine ⟨fun f => ⟨fun h => ?_, fun h => ?_⟩, ⟨nofun, nofun⟩⟩
          · cases h
            exact ⟨⟨c, rfl⟩, ⟨s, rfl⟩, rfl⟩
          · cases h.2.2
            rfl
        | ok t =>
          exact ⟨fun f => ⟨nofun, nofun⟩, fun _ => ⟨⟨c, rfl⟩, ⟨s, rfl⟩, t, rfl⟩, fun _ => ⟨_, rfl⟩⟩

variable (X) in
/-- The engine of a configuration, with the generators and strategies of this library. -/
def Engine.ofBuiltin (M : Type) {V : Type} [Model M V Float] (props : Properties) :
    Except Failure (Engine (AnyStrategy (Generator X Float) Float) M V Float × Option Nat) :=
  Engine.ofProperties Registry.builtin props

theorem Engine.ofProperties_eq_fault_iff {M V : Type} [Model M V Float] (props : Properties)
    (f : Fault) : Engine.ofBuiltin X M props = .error (.fault f) ↔
      f = .durationRange ∧ props.Overlong ∧
        ∃ e, Engine.ofBuiltin X M props.withoutTimeLimit = .ok e := by
  have h := Engine.outcome_iff (x := Engine.ofBuiltin X M props) rfl
  have hwithout := Engine.outcome_iff (x := Engine.ofBuiltin X M props.withoutTimeLimit) rfl
  rw [GeneralConfig.ofProperties_withoutTimeLimit,
    Registry.buildStrategy_withoutTimeLimit] at hwithout
  rw [h.1, hwithout.2, Termination.faultsWhenOverlong props f]
  tauto

namespace Section

/-- The sections with a time limit among their settings. -/
def HasTimeLimit : Section → Prop
  | termination => True
  | solver => True
  | _ => False

/-- The settings pass the checks of their section. -/
def Accepted [Scalar α] : (s : Section) → s.Settings α → Prop
  | solver, c =>
    DelugeConfig.validate c.deluge = .ok () ∧ AnnealingConfig.validate c.annealing = .ok () ∧
      SearchConfig.validate c.search = .ok ()
  | s, c => s.validate c = .ok ()

/-- A reading that cannot be a fault gives its own value. -/
theorem map_ok_eq_iff {ε β : Type} {x : Except ε β} {r : Except Fault β} :
    x.map .ok = .ok r ↔ ∃ b, x = .ok b ∧ r = .ok b := by
  cases x with
  | error e => simp [Except.map]
  | ok b => simp [Except.map, eq_comm]

theorem accepted_of_ofProperties {props : Properties} {s : Section} {c : s.Settings Float}
    (h : ofProperties props s = .ok (.ok c)) : s.Accepted c := by
  cases s with
  | general => rfl
  | sequence => rfl
  | hillClimber => rfl
  | deluge =>
    obtain ⟨c', hread, hc⟩ := map_ok_eq_iff.1 h
    cases hc
    exact DelugeConfig.validate_of_ofProperties hread
  | annealing =>
    obtain ⟨c', hread, hc⟩ := map_ok_eq_iff.1 h
    cases hc
    exact AnnealingConfig.validate_of_ofProperties hread
  | search =>
    obtain ⟨c', hread, hc⟩ := map_ok_eq_iff.1 h
    cases hc
    exact SearchConfig.validate_of_ofProperties hread
  | construction => rfl
  | termination => rfl
  | solver => exact SolverConfig.validate_of_ofProperties h

theorem eq_fault_iff {props : Properties} {s : Section} {f : Fault} :
    ofProperties (α := Float) props s = .ok (.error f) ↔
      s.HasTimeLimit ∧ f = .durationRange ∧ props.Overlong ∧
        ∃ c, ofProperties (α := Float) props.withoutTimeLimit s = .ok (.ok c) := by
  have hnever : ∀ {ε β : Type} {x : Except ε β}, x.map .ok ≠ .ok (.error f : Except Fault β) :=
    fun {ε β x} h => by
      obtain ⟨b, -, hb⟩ := map_ok_eq_iff.1 h
      cases hb
  cases s with
  | termination =>
    have h := TerminationConfig.faultsWhenOverlong props f
    exact ⟨fun hfault => ⟨trivial, h.1 hfault⟩, fun hlimit => h.2 hlimit.2⟩
  | solver =>
    have h := SolverConfig.faultsWhenOverlong props f
    exact ⟨fun hfault => ⟨trivial, h.1 hfault⟩, fun hlimit => h.2 hlimit.2⟩
  | _ => exact ⟨fun h => absurd h hnever, fun h => h.1.elim⟩

end Section

/-- A reading is a fault exactly if it reads the time limit, that is overlong, and nothing else is
in error; whatever else is configured, the reading ends in a value or an error. The settings that
are read pass their own checks. -/
theorem faults_iff_overlong {M V : Type} [Model M V Float] (props : Properties) :
    (∀ s : Section,
      (∀ f, Section.ofProperties (α := Float) props s = .ok (.error f) ↔
        s.HasTimeLimit ∧ f = .durationRange ∧ props.Overlong ∧
          ∃ c, Section.ofProperties (α := Float) props.withoutTimeLimit s = .ok (.ok c)) ∧
      ∀ c : s.Settings Float, Section.ofProperties props s = .ok (.ok c) → s.Accepted c) ∧
    (∀ f, Termination.ofProperties Float props = .ok (.error f) ↔
      f = .durationRange ∧ props.Overlong ∧
        ∃ t, Termination.ofProperties Float props.withoutTimeLimit = .ok (.ok t)) ∧
    ∀ f, Engine.ofBuiltin X M props = .error (.fault f) ↔
      f = .durationRange ∧ props.Overlong ∧
        ∃ e, Engine.ofBuiltin X M props.withoutTimeLimit = .ok e :=
  ⟨fun _ => ⟨fun _ => Section.eq_fault_iff, fun _ => Section.accepted_of_ofProperties⟩,
    Termination.faultsWhenOverlong props, Engine.ofProperties_eq_fault_iff props⟩

/-- A number that is far too large passes the only test that a time limit has to pass. -/
theorem fault_of_endless_limit :
    TerminationConfig.ofProperties Float (Dictionary.ofList [("Termination.TimeOut", "1e300")]) =
      .ok (.error .durationRange) := by
  decide +kernel

end LocalSearch
