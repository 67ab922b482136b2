import LocalSearch.Proofs.Selection.Frame
import LocalSearch.Proofs.Selection.Steps
/-!
# When construction is stuck

An orchestrator watches how many variables construction leaves unassigned. It remembers the least
count so far and how many calls ago it was reached, and restarts when that is long enough ago. A
stage that stands for a restart brings one about as well, when it takes over; nothing else does.

* `Orchestrator.sinceLeast`: how long ago the least entry of a list was first reached.
* `Orchestrator.length_le_of_sinceLeast_lt`: a list whose least entry never gets too old is short.
* `Orchestrator.Observed`: the counts that an orchestrator has seen since it was prepared or has
  restarted, over any run of calls.
* `Orchestrator.Watches`: what it remembers of them.
* `Orchestrator.Steers`, `Orchestrator.DueFor`: what a step does about restarts, and why one is due.
-/

namespace LocalSearch

open Act
open Model.Tables (assigned kept)

namespace Orchestrator

/-! ## The age of the least entry -/

section

variable {us before : List Nat} {u least n limit : Nat}

/-- How many entries come after the one that first attains the minimum. -/
def sinceLeast (us : List Nat) : Nat :=
  match us.min? with
  | none => 0
  | some least => us.length - (us.idxOf least + 1)

theorem sinceLeast_of_min? (h : us.min? = some least) :
    sinceLeast us = us.length - (us.idxOf least + 1) := by
  simp only [sinceLeast, h]

theorem min?_concat_of_none (h : us.min? = none) : (us ++ [u]).min? = some u := by
  rw [List.min?_eq_none_iff.1 h]
  rfl

/-- An entry that is not less than all before it leaves the minimum, which gets older. -/
theorem sinceLeast_concat_of_le (h : us.min? = some least) (hu : least ≤ u) :
    (us ++ [u]).min? = some least ∧ sinceLeast (us ++ [u]) = sinceLeast us + 1 := by
  obtain ⟨hmem, hle⟩ := List.min?_eq_some_iff.1 h
  have hmin : (us ++ [u]).min? = some least := by
    refine List.min?_eq_some_iff.2 ⟨List.mem_append_left _ hmem, fun v hv => ?_⟩
    rcases List.mem_append.1 hv with hv | hv
    · exact hle v hv
    · exact List.mem_singleton.1 hv ▸ hu
  refine ⟨hmin, ?_⟩
  have hlt : us.idxOf least < us.length := List.idxOf_lt_length_iff.2 hmem
  rw [sinceLeast_of_min? hmin, sinceLeast_of_min? h, List.idxOf_append_of_mem hmem, List.length_append,
    List.length_singleton]
  omega

/-- An entry that is less than all before it is the new minimum. -/
theorem sinceLeast_concat_of_lt (h : us.min? = some least) (hu : u < least) :
    (us ++ [u]).min? = some u ∧ sinceLeast (us ++ [u]) = 0 := by
  obtain ⟨-, hle⟩ := List.min?_eq_some_iff.1 h
  have hmin : (us ++ [u]).min? = some u := by
    refine List.min?_eq_some_iff.2 ⟨by simp, fun v hv => ?_⟩
    rcases List.mem_append.1 hv with hv | hv
    · exact Nat.le_of_lt (Nat.lt_of_lt_of_le hu (hle v hv))
    · exact Nat.le_of_eq (List.mem_singleton.1 hv).symm
  have hnot : u ∉ us := fun hmem => Nat.not_le_of_lt hu (hle u hmem)
  refine ⟨hmin, ?_⟩
  rw [sinceLeast_of_min? hmin, List.idxOf_append_of_notMem hnot]
  simp

theorem sinceLeast_concat_le (us : List Nat) (u : Nat) :
    sinceLeast (us ++ [u]) ≤ sinceLeast us + 1 := by
  cases h : us.min? with
  | none =>
    rw [List.min?_eq_none_iff.1 h]
    simp [sinceLeast]
  | some least =>
    rcases Nat.lt_or_ge u least with hu | hu
    · exact (sinceLeast_concat_of_lt h hu).2 ▸ Nat.zero_le _
    · exact Nat.le_of_eq (sinceLeast_concat_of_le h hu).2

/-- While the least entry does not get too old, every entry that a list loses from its minimum is
worth so many more entries. -/
theorem length_le_of_min? (hn : ∀ u ∈ us, u ≤ n)
    (hbefore : ∀ before, before <+: us → before ≠ us → sinceLeast before < limit)
    (h : us.min? = some least) : us.length ≤ (n - least) * limit + sinceLeast us + 1 := by
  -- by induction on the list from its end
  induction us using List.reverseRecOn generalizing least with
  | nil => cases h
  | append_singleton us u ih =>
    have hu : u ≤ n := hn u (by simp)
    have hus : sinceLeast us < limit := hbefore us (List.prefix_append _ _) (by simp)
    rw [List.length_append, List.length_singleton]
    cases hmin : us.min? with
    | none =>
      rw [List.min?_eq_none_iff.1 hmin]
      simp
    | some m =>
      have hle := ih (fun v hv => hn v (List.mem_append_left _ hv))
        (fun before hpre hne => hbefore before (hpre.trans (List.prefix_append _ _)) fun heq => by
          have := hpre.length_le
          rw [heq, List.length_append, List.length_singleton] at this
          omega) hmin
      rcases Nat.lt_or_ge u m with hlt | hge
      · obtain ⟨hmin', hsince⟩ := sinceLeast_concat_of_lt hmin hlt
        obtain rfl : u = least := Option.some.inj (hmin'.symm.trans h)
        have hm : m ≤ n := hn m (List.mem_append_left _ (List.min?_mem hmin))
        -- the lower minimum makes up for all entries since the last one
        have hstep : (n - m) * limit + limit ≤ (n - u) * limit := by
          rw [← Nat.succ_mul]
          exact Nat.mul_le_mul_right limit (by omega)
        omega
      · obtain ⟨hmin', hsince⟩ := sinceLeast_concat_of_le hmin hge
        obtain rfl : m = least := Option.some.inj (hmin'.symm.trans h)
        omega

/-- A list of numbers up to `n` ends at the latest when its least entry is too old. -/
theorem length_le_of_sinceLeast_lt (hn : ∀ u ∈ us, u ≤ n)
    (hbefore : ∀ before, before <+: us → before ≠ us → sinceLeast before < limit) :
    us.length ≤ (n + 1) * limit + 1 := by
  cases h : us.min? with
  | none =>
    rw [List.min?_eq_none_iff.1 h]
    exact Nat.zero_le _
  | some least =>
    have hle := length_le_of_min? hn hbefore h
    have hsince : sinceLeast us ≤ limit := by
      rcases us.eq_nil_or_concat' with rfl | ⟨rest, u, rfl⟩
      · cases h
      · have hrest := hbefore rest (List.prefix_append _ _) (by simp)
        exact (sinceLeast_concat_le rest u).trans hrest
    have hmul : (n - least) * limit ≤ n * limit := Nat.mul_le_mul_right limit (Nat.sub_le _ _)
    rw [Nat.succ_mul]
    omega

end

variable {S G M V α : Type}

/-! ## What an orchestrator remembers -/

/-- What an orchestrator remembers of the counts that it has seen since it was prepared or has
restarted. Until a restart is due, the least of them has never been too old. -/
structure Watches (o : Orchestrator S α) (us : List Nat) : Prop where
  lastUnassigned : o.lastUnassigned = us.min?
  stalled : o.stalled = sinceLeast us
  limit_pos : 0 < o.restartLimit
  before : ∀ before, before <+: us → before ≠ us → sinceLeast before < o.restartLimit
  waiting : o.phase ≠ .restart → sinceLeast us < o.restartLimit

variable {o o' : Orchestrator S α} {us : List Nat}

/-- Nothing has been seen yet. -/
theorem watches_nil (hlast : o.lastUnassigned = none) (hstalled : o.stalled = 0)
    (hlimit : 0 < o.restartLimit) : o.Watches [] where
  lastUnassigned := hlast
  stalled := hstalled
  limit_pos := hlimit
  before _ hpre hne := absurd (List.prefix_nil.1 hpre) hne
  waiting _ := hlimit

/-- An orchestrator with the same memory in a phase that is no restart. -/
theorem Watches.of_same (h : o.Watches us) (hlast : o'.lastUnassigned = o.lastUnassigned)
    (hstalled : o'.stalled = o.stalled) (hlimit : o'.restartLimit = o.restartLimit)
    (hphase : o.phase ≠ .restart ∨ o'.phase = o.phase) : o'.Watches us where
  lastUnassigned := hlast.trans h.lastUnassigned
  stalled := hstalled.trans h.stalled
  limit_pos := hlimit ▸ h.limit_pos
  before := hlimit ▸ h.before
  waiting hphase' := by
    rw [hlimit]
    rcases hphase with hphase | hphase
    · exact h.waiting hphase
    · exact h.waiting (hphase ▸ hphase')

theorem Restaged.watches (h : o.Restaged o') (ho : o.Watches us) : o'.Watches us := by
  obtain ⟨stages, -, rfl⟩ := h
  exact ho.of_same rfl rfl rfl (.inr rfl)

/-- An observation finds construction stuck if and only if the least count is too old by now. -/
theorem observe_watches (h : o.Watches us) (u : Nat) :
    (o.observe u).1.lastUnassigned = (us ++ [u]).min? ∧
      (o.observe u).1.stalled = sinceLeast (us ++ [u]) ∧
      (o.observe u).2 = decide (o.restartLimit ≤ sinceLeast (us ++ [u])) := by
  have hfirst : decide (o.restartLimit ≤ 0) = false := by
    simpa using Nat.ne_of_gt h.limit_pos
  have hlast := h.lastUnassigned
  unfold observe
  cases hmin : us.min? with
  | none =>
    rw [hmin] at hlast
    have hsince : sinceLeast (us ++ [u]) = 0 := by
      rw [List.min?_eq_none_iff.1 hmin]
      simp [sinceLeast]
    rw [hlast, hsince, min?_concat_of_none hmin, hfirst]
    exact ⟨rfl, rfl, rfl⟩
  | some least =>
    rw [hmin] at hlast
    rw [hlast]
    dsimp only
    rcases Nat.lt_or_ge u least with hu | hu
    · obtain ⟨hmin', hsince⟩ := sinceLeast_concat_of_lt hmin hu
      rw [if_neg (Nat.not_le_of_lt hu), hsince, hmin', hfirst]
      exact ⟨rfl, rfl, rfl⟩
    · obtain ⟨hmin', hsince⟩ := sinceLeast_concat_of_le hmin hu
      rw [if_pos hu, hsince, hmin', ← h.stalled]
      exact ⟨rfl, rfl, rfl⟩

/-- The memory after one more observation. If it is long enough, the phase has to be a restart. -/
theorem Watches.concat (h : o.Watches us) (hphase : o.phase ≠ .restart) {u : Nat}
    (hlast : o'.lastUnassigned = (o.observe u).1.lastUnassigned)
    (hstalled : o'.stalled = (o.observe u).1.stalled) (hlimit : o'.restartLimit = o.restartLimit)
    (hstuck : o'.phase = .restart ∨ (o.observe u).2 = false) : o'.Watches (us ++ [u]) := by
  obtain ⟨hmin, hsince, hflag⟩ := observe_watches h u
  refine ⟨hlast.trans hmin, hstalled.trans hsince, hlimit ▸ h.limit_pos, fun before hpre hne => ?_,
    fun hphase' => ?_⟩
  · rw [hlimit]
    rcases List.prefix_concat_iff.1 hpre with heq | hpre
    · exact absurd heq hne
    by_cases heq : before = us
    · exact heq ▸ h.waiting hphase
    · exact h.before before hpre heq
  · rw [hlimit]
    rcases hstuck with hstuck | hstuck
    · exact absurd hstuck hphase'
    · rw [hflag, decide_eq_false_iff_not] at hstuck
      exact Nat.lt_of_not_le hstuck

/-! ## What leads to a restart -/

/-- The orchestrators rotate stages with the same labels, have the same limit and have restarted as
often. -/
structure SamePlan (o o' : Orchestrator S α) : Prop where
  restarts : o'.restarts = o.restarts
  rotation : o'.rotation = o.rotation
  restartLimit : o'.restartLimit = o.restartLimit

theorem SamePlan.trans {o'' : Orchestrator S α} (h : o.SamePlan o') (h' : o'.SamePlan o'') :
    o.SamePlan o'' :=
  ⟨h'.restarts.trans h.restarts, h'.rotation.trans h.rotation,
    h'.restartLimit.trans h.restartLimit⟩

theorem Restaged.samePlan (h : o.Restaged o') : o.SamePlan o' := by
  have hrotation : o'.rotation = o.rotation := by rw [rotation_eq, rotation_eq, h.plan_eq]
  obtain ⟨stages, -, rfl⟩ := h
  exact ⟨rfl, hrotation, rfl⟩

theorem Entered.samePlan {index : Nat} (h : Entered index o o') : o.SamePlan o' := by
  obtain ⟨stage, -, rfl⟩ := h
  exact ⟨rfl, rfl, rfl⟩

theorem samePlan_seen [Model M V α] (construction : Construction α) (s : Solution M α) :
    o.SamePlan (o.seen construction s).1 :=
  ⟨observe_restarts _ _, observe_rotation _ _, observe_restartLimit _ _⟩

/-- The index of the stage that takes over next: after construction the first one, and otherwise the
one behind the stage whose turn it is. -/
def successor (o : Orchestrator S α) : Nat :=
  if o.phase = .construction then 0 else (o.current + 1) % o.stages.length

/-- Why a step turns an orchestrator to a restart: construction is stuck, if `us` are the counts with
the one that the step adds, or a stage that stands for a restart takes over. -/
inductive TurnsToRestart (o : Orchestrator S α) (us : List Nat) (o' : Orchestrator S α) : Prop
  | stuck (hphase : o.phase = .construction) (hold : o.restartLimit ≤ sinceLeast us)
  | takesOver (hcurrent : o'.current = o.successor)
    (hlabel : o.rotation[o.successor]? = some .restart)

/-- What a step does about restarts that is none itself. -/
structure Steers (o : Orchestrator S α) (us : List Nat) (o' : Orchestrator S α) : Prop
    extends SamePlan o o' where
  turns : o'.phase = .restart → o.TurnsToRestart us o'

/-- What a stage does in its turn brings about no restart. -/
theorem Restaged.steers (hphase : o.phase.IsAcceptance) (us : List Nat) (h : o.Restaged o') :
    o.Steers us o' := by
  refine ⟨h.samePlan, fun hrestart => ?_⟩
  obtain ⟨stages, -, rfl⟩ := h
  exact absurd hrestart hphase.2

/-- If the next stage takes over, its label says whether there is a restart. -/
theorem Restaged.steers_of_entered {o₁ : Orchestrator S α} (hphase : o.phase.IsAcceptance)
    (us : List Nat) (h₁ : o.Restaged o₁)
    (h : Entered ((o.current + 1) % o₁.stages.length) o₁ o') : o.Steers us o' := by
  have hlength : o₁.stages.length = o.stages.length := by
    rw [← length_plan, ← length_plan, h₁.plan_eq]
  have hnext : o.successor = (o.current + 1) % o₁.stages.length := by
    rw [successor, if_neg hphase.1, hlength]
  have hsame := h₁.samePlan.trans h.samePlan
  refine ⟨hsame, fun hrestart => ?_⟩
  apply TurnsToRestart.takesOver (h.current_eq.trans hnext.symm)
  have hlabel := h.rotation_eq
  rw [h.current_eq, hsame.rotation, hrestart] at hlabel
  rw [hnext, hlabel]

/-- A restart is due only if the least count is too old, or if it is the turn of a stage that stands
for a restart. -/
def DueFor (o : Orchestrator S α) (us : List Nat) : Prop :=
  o.phase = .restart →
    o.restartLimit ≤ sinceLeast us ∨ o.rotation[o.current]? = some .restart

theorem Restaged.dueFor (h : o.Restaged o') (ho : o.DueFor us) : o'.DueFor us := by
  intro hrestart
  have hrotation := h.samePlan.rotation
  obtain ⟨stages, -, rfl⟩ := h
  rw [hrotation]
  exact ho hrestart

theorem Steers.dueFor (h : o.Steers us o') : o'.DueFor us := by
  intro hrestart
  rw [h.restartLimit, h.rotation]
  cases h.turns hrestart with
  | stuck _ hold => exact .inl hold
  | takesOver hcurrent hlabel => exact .inr (hcurrent ▸ hlabel)

/-! ## Runs -/

section

variable [Scalar α] [Model M V α] [Strategy S M V α]

variable (M) in
/-- The counts of unassigned variables that an orchestrator has seen since it was prepared or has
restarted, after a run on models of `n` variables. The solution may be any other one at every step,
since between two calls proposals are committed or vetoed and variables lose their values. A stage
may fail in its turn, but a run does not go on after construction or a restart broke off. -/
inductive Observed [Model.Tables M V] (n : Nat) : Orchestrator S α → List Nat → Prop
  | new {construction : Construction α} {stages : List (Stage S)} {restartLimit : Nat}
    {o : Orchestrator S α} (hof : Orchestrator.of construction stages restartLimit = .ok o) :
    Observed n o []
  | init {o : Orchestrator S α} {us : List Nat} {w : World M α} {t : Orchestrator S α × World M α}
    (h : Observed n o us) (hrun : init (o, w) = .ok () t) : Observed n t.1 []
  | unprepared {o : Orchestrator S α} {us : List Nat} {w : World M α} {e : Failure}
    {t : Orchestrator S α × World M α} (h : Observed n o us) (hrun : init (o, w) = .error e t) :
    Observed n t.1 us
  | construction {o : Orchestrator S α} {us : List Nat} {w : World M α} {exhausted : Nat}
    {r : Except Nat (Option (Proposal V α))} {t : Orchestrator S α × World M α}
    (h : Observed n o us) (hphase : o.phase = .construction)
    (hw : Model.Fitting w.solution.model) (hn : Model.variableCount w.solution.model = n)
    (hrun : phaseStep exhausted (o, w) = .ok r t) :
    Observed n t.1 (us ++ [Model.unassignedCount w.solution.model])
  | restart {o : Orchestrator S α} {us : List Nat} {w : World M α} {exhausted : Nat}
    {r : Except Nat (Option (Proposal V α))} {t : Orchestrator S α × World M α}
    (h : Observed n o us) (hphase : o.phase = .restart)
    (hrun : phaseStep exhausted (o, w) = .ok r t) : Observed n t.1 []
  | turn {o : Orchestrator S α} {us : List Nat} (w : World M α) (exhausted : Nat)
    (h : Observed n o us) (hphase : o.phase.IsAcceptance) :
    Observed n ((phaseStep exhausted : Act (Orchestrator S α) M α
      (Except Nat (Option (Proposal V α)))).after (o, w)).1 us
  | bestSaved {o : Orchestrator S α} {us : List Nat} (h : Observed n o us) :
    Observed n (Strategy.bestSaved M o) us
  | resetScores {o : Orchestrator S α} {us : List Nat} (h : Observed n o us) :
    Observed n (Strategy.resetScores M o) us

variable {n exhausted : Nat} {w : World M α} {t : Orchestrator S α × World M α}
  {r : Except Nat (Option (Proposal V α))}

/-- What a step of construction comes to, if `us` are the counts with the one that it adds: a
restart exactly if the least of them is too old, and otherwise an offer or the first stage. -/
inductive Judged (exhausted : Nat) (o : Orchestrator S α) (model : M) (us : List Nat) :
    Except Nat (Option (Proposal V α)) → Orchestrator S α → Prop
  | stuck {o' : Orchestrator S α} (hold : o.restartLimit ≤ sinceLeast us)
    (hphase : o'.phase = .restart) : Judged exhausted o model us (.error exhausted) o'
  | offers {o' : Orchestrator S α} {p : Proposal V α} (hyoung : sinceLeast us < o.restartLimit)
    (hp : Construction.Offers model p) (hphase : o'.phase = .construction) :
    Judged exhausted o model us (.ok (some p)) o'
  | enters {o' : Orchestrator S α} (hyoung : sinceLeast us < o.restartLimit)
    (hcurrent : o'.current = 0) (hphase : o.rotation[0]? = some o'.phase) :
    Judged exhausted o model us (.error exhausted) o'

/-- One more observation. -/
theorem constructionStep_judged (ho : o.Watches us) (hphase : o.phase = .construction)
    (hrun : phaseStep exhausted (o, w) = .ok r t) :
    t.1.Watches (us ++ [Model.unassignedCount w.solution.model]) ∧
      Judged exhausted o w.solution.model (us ++ [Model.unassignedCount w.solution.model]) r t.1 ∧
      t.2.solution = w.solution := by
  obtain ⟨hpost, hsolution⟩ := (constructionStep_spec (M := M) (V := V)
    (s := w.solution) exhausted hphase).of_ok (s := (o, w)) ⟨rfl, rfl⟩ hrun
  obtain ⟨o', w'⟩ := t
  have hpost : Constructed exhausted o w.solution r o' := hpost
  have hne : o.phase ≠ .restart := by rw [hphase]; decide
  have hseen (construction : Construction α) : ({ o with construction }).Watches us :=
    ho.of_same rfl rfl rfl (.inr rfl)
  refine ⟨?_, ?_, hsolution⟩
  · cases hpost with
    | stuck construction =>
      exact (hseen construction).concat hne rfl rfl (observe_restartLimit _ _) (.inl rfl)
    | offers construction hflag =>
      exact (hseen construction).concat hne rfl rfl (observe_restartLimit _ _) (.inr hflag)
    | enters construction hflag hentered =>
      obtain ⟨stage, -, rfl⟩ := hentered
      exact (hseen construction).concat hne rfl rfl (observe_restartLimit _ _) (.inr hflag)
  · have hverdict (construction : Construction α) : (o.seen construction w.solution).2 =
        decide (o.restartLimit ≤ sinceLeast (us ++ [Model.unassignedCount w.solution.model])) :=
      (observe_watches (hseen construction) _).2.2
    cases hpost with
    | stuck construction hflag =>
      rw [hverdict, decide_eq_true_iff] at hflag
      exact .stuck hflag rfl
    | offers construction hflag hp =>
      rw [hverdict, decide_eq_false_iff_not] at hflag
      exact .offers (Nat.lt_of_not_le hflag) hp ((observe_phase _ _).trans hphase)
    | enters construction hflag hentered =>
      rw [hverdict, decide_eq_false_iff_not] at hflag
      refine .enters (Nat.lt_of_not_le hflag) hentered.current_eq ?_
      have hrotation := hentered.rotation_eq
      rw [hentered.current_eq] at hrotation
      rw [← hrotation, rotation_eq, rotation_eq, hentered.plan_eq, seen, plan, plan, observe_stages]

/-- The turn of a stage leaves the memory alone, however it ends. -/
theorem turn_watches (ho : o.Watches us) (hphase : o.phase.IsAcceptance) :
    ((phaseStep exhausted : Act (Orchestrator S α) M α
      (Except Nat (Option (Proposal V α)))).after (o, w)).1.Watches us := by
  have hspec := turn_spec (V := V) (t := (o, w)) exhausted hphase
  have hentered {o₁ o₂ : Orchestrator S α} {index : Nat} (h : Entered index o₁ o₂)
      (h₁ : o.Restaged o₁) : o₂.Watches us := by
    obtain ⟨stage, -, rfl⟩ := h
    obtain ⟨stages, -, rfl⟩ := h₁
    exact ho.of_same rfl rfl rfl (.inl hphase.2)
  unfold Attempt.after
  cases hrun : (phaseStep exhausted (o, w) :
      EStateM.Result Failure _ (Except Nat (Option (Proposal V α)))) with
  | ok r t =>
    cases hspec.of_ok rfl hrun with
    | offers hask => exact (restaged_of_ask hask).watches ho
    | next hask henter => exact hentered henter (restaged_of_ask hask)
    | last hask henter => exact hentered henter (restaged_of_ask hask)
  | error e t =>
    obtain ⟨o', w'⟩ := t
    have hleft : Unturned (o, w) o' := hspec.of_error rfl hrun
    cases hleft with
    | asked h => exact h.watches ho
    | next h => exact (h.watches ho).of_same rfl rfl rfl (.inr rfl)

/-- Over a run an orchestrator remembers what it has seen. -/
theorem Observed.watches [Model.Tables M V] (h : Observed M n o us) : o.Watches us := by
  -- one case for every kind of step
  induction h with
  | new hof =>
    have hnew := new_of hof
    exact watches_nil hnew.lastUnassigned_eq hnew.stalled_eq (by rw [hnew.restartLimit_eq]; omega)
  | @init o _ w _ _ hrun ih =>
    obtain ⟨construction, h⟩ := (init_restaged (M := M) (V := V) (s := w.solution)).of_ok
      (s := (o, w)) ⟨rfl, rfl⟩ hrun
    exact h.watches (watches_nil rfl rfl ih.limit_pos)
  | @unprepared o _ w _ _ _ hrun ih =>
    obtain ⟨construction, h⟩ := (init_restaged (M := M) (V := V) (s := w.solution)).of_error
      (s := (o, w)) ⟨rfl, rfl⟩ hrun
    exact h.watches (ih.of_same rfl rfl rfl (.inr rfl))
  | construction _ hphase _ _ hrun ih => exact (constructionStep_judged ih hphase hrun).1
  | @restart o _ w _ _ _ _ hphase hrun ih =>
    obtain ⟨-, ho, -⟩ := (restartStep_spec (M := M) (V := V) (s := w.solution) _ hphase
      Attempt.ensures_any).of_ok (s := (o, w)) ⟨rfl, rfl⟩ hrun
    rw [ho]
    exact watches_nil rfl rfl ih.limit_pos
  | turn w exhausted _ hphase ih => exact turn_watches ih hphase
  | bestSaved _ ih => exact (restaged_map _ (Strategy.bestSaved M)).watches ih
  | resetScores _ ih => exact (restaged_map _ (Strategy.resetScores M)).watches ih

/-! ### Turning to a restart -/

omit [Scalar α] [Strategy S M V α] in
theorem Constructed.samePlan {s : Solution M α} (h : Constructed exhausted o s r o') :
    o.SamePlan o' := by
  cases h with
  | stuck construction =>
    obtain ⟨hrestarts, hrotation, hlimit⟩ := samePlan_seen (o := o) construction s
    exact ⟨hrestarts, hrotation, hlimit⟩
  | offers construction => exact samePlan_seen construction s
  | enters construction _ hentered => exact (samePlan_seen construction s).trans hentered.samePlan

omit [Scalar α] [Strategy S M V α] in
/-- A step of construction that fails stays with it. -/
theorem Unconstructed.samePlan {s : Solution M α} (h : Unconstructed o s o') :
    o.SamePlan o' ∧ o'.phase = o.phase := by
  cases h with
  | early construction => exact ⟨⟨rfl, rfl, rfl⟩, rfl⟩
  | stuck construction => exact ⟨samePlan_seen construction s, observe_phase _ _⟩
  | enters construction =>
    obtain ⟨hrestarts, hrotation, hlimit⟩ := samePlan_seen (o := o) construction s
    exact ⟨⟨hrestarts, hrotation, hlimit⟩, observe_phase _ _⟩

omit [Scalar α] [Strategy S M V α] in
theorem Judged.turnsToRestart {model : M} (h : Judged exhausted o model us r o')
    (hphase : o.phase = .construction) (hrestart : o'.phase = .restart) :
    o.TurnsToRestart us o' := by
  have hfirst : o.successor = 0 := if_pos hphase
  cases h with
  | stuck hold => exact .stuck hphase hold
  | offers _ _ hstays => cases hstays.symm.trans hrestart
  | enters _ hcurrent hlabel =>
    apply TurnsToRestart.takesOver (hcurrent.trans hfirst.symm)
    rw [hfirst, hlabel, hrestart]

theorem constructionStep_steers (ho : o.Watches us) (hphase : o.phase = .construction) :
    o.Steers (us ++ [Model.unassignedCount w.solution.model])
      ((phaseStep exhausted : Act (Orchestrator S α) M α
        (Except Nat (Option (Proposal V α)))).after (o, w)).1 := by
  have hspec := constructionStep_spec (M := M) (V := V) (s := w.solution) exhausted hphase
  unfold Attempt.after
  cases hrun : (phaseStep exhausted (o, w) :
      EStateM.Result Failure _ (Except Nat (Option (Proposal V α)))) with
  | ok r t =>
    obtain ⟨-, hjudged, -⟩ := constructionStep_judged ho hphase hrun
    have hpost : Constructed exhausted o w.solution r t.1 :=
      (hspec.of_ok (s := (o, w)) ⟨rfl, rfl⟩ hrun).1
    exact ⟨hpost.samePlan, hjudged.turnsToRestart hphase⟩
  | error e t =>
    have hleft : Unconstructed o w.solution t.1 :=
      (hspec.of_error (s := (o, w)) ⟨rfl, rfl⟩ hrun).1
    obtain ⟨hsame, hstays⟩ := hleft.samePlan
    refine ⟨hsame, fun hrestart => ?_⟩
    cases hrestart.symm.trans (hstays.trans hphase)

theorem turn_steers (us : List Nat) (hphase : o.phase.IsAcceptance) :
    o.Steers us ((phaseStep exhausted : Act (Orchestrator S α) M α
      (Except Nat (Option (Proposal V α)))).after (o, w)).1 := by
  have hspec := turn_spec (V := V) (t := (o, w)) exhausted hphase
  unfold Attempt.after
  cases hrun : (phaseStep exhausted (o, w) :
      EStateM.Result Failure _ (Except Nat (Option (Proposal V α)))) with
  | ok r t =>
    cases hspec.of_ok rfl hrun with
    | offers hask => exact (restaged_of_ask hask).steers hphase us
    | next hask henter => exact (restaged_of_ask hask).steers_of_entered hphase us henter
    | last hask henter => exact (restaged_of_ask hask).steers_of_entered hphase us henter
  | error e t =>
    obtain ⟨o', w'⟩ := t
    have hleft : Unturned (o, w) o' := hspec.of_error rfl hrun
    cases hleft with
    | asked h => exact h.steers hphase us
    | next h =>
      -- the index of the next stage has been noted, but not its phase
      obtain ⟨⟨hrestarts, hrotation, hlimit⟩, -⟩ := h.steers hphase us
      refine ⟨⟨hrestarts, hrotation, hlimit⟩, fun hrestart => ?_⟩
      obtain ⟨stages, -, rfl⟩ := h
      exact absurd hrestart hphase.2

/-- A step in any phase but a restart. -/
theorem phaseStep_steers (ho : o.Watches us) (hphase : o.phase ≠ .restart) (exhausted : Nat)
    (w : World M α) :
    o.Steers (us ++ [Model.unassignedCount w.solution.model])
      ((phaseStep exhausted : Act (Orchestrator S α) M α
        (Except Nat (Option (Proposal V α)))).after (o, w)).1 := by
  by_cases hconstruction : o.phase = .construction
  · exact constructionStep_steers ho hconstruction
  · exact turn_steers _ ⟨hconstruction, hphase⟩

theorem Observed.dueFor [Model.Tables M V] (h : Observed M n o us) : o.DueFor us := by
  have hnot {o : Orchestrator S α} {us : List Nat} (h : o.phase = .construction) : o.DueFor us := by
    intro hrestart
    cases h.symm.trans hrestart
  induction h with
  | new hof => exact hnot (new_of hof).phase_eq
  | @init o _ w _ _ hrun =>
    obtain ⟨construction, h⟩ := (init_restaged (M := M) (V := V) (s := w.solution)).of_ok
      (s := (o, w)) ⟨rfl, rfl⟩ hrun
    exact h.dueFor (hnot rfl)
  | @unprepared o _ w _ _ _ hrun ih =>
    obtain ⟨construction, h⟩ := (init_restaged (M := M) (V := V) (s := w.solution)).of_error
      (s := (o, w)) ⟨rfl, rfl⟩ hrun
    exact h.dueFor ih
  | @construction _ _ w exhausted _ _ h hphase _ _ hrun =>
    have hsteers := phaseStep_steers h.watches (by rw [hphase]; decide) exhausted w
    rw [Attempt.after_of_ok hrun] at hsteers
    exact hsteers.dueFor
  | @restart o _ w _ _ _ _ hphase hrun =>
    obtain ⟨-, ho, -⟩ := (restartStep_spec (M := M) (V := V) (s := w.solution) _ hphase
      Attempt.ensures_any).of_ok (s := (o, w)) ⟨rfl, rfl⟩ hrun
    exact hnot (by rw [ho])
  | turn w exhausted _ hphase => exact (turn_steers _ hphase).dueFor
  | bestSaved _ ih => exact (restaged_map _ (Strategy.bestSaved M)).dueFor ih
  | resetScores _ ih => exact (restaged_map _ (Strategy.resetScores M)).dueFor ih

end

/-! ## Episodes of construction -/

section

variable [Scalar α] [Model M V α] [Model.Resettable M]

omit [Scalar α] in
/-- No more variables can be unassigned than there are. -/
theorem unassignedCount_le {m : M} (hm : Model.Fitting m) :
    Model.unassignedCount m ≤ Model.variableCount m := by
  rw [Model.Tabular.unassignedCount_eq, ← hm.length_assigned]
  exact List.length_filter_le _ _

section

variable [Strategy S M V α] {n : Nat}

theorem Observed.counts_le (h : Observed M n o us) : ∀ u ∈ us, u ≤ n := by
  induction h with
  | new | init | restart => exact fun _ hu => absurd hu List.not_mem_nil
  | construction _ _ hw hn _ ih =>
    intro u hu
    rcases List.mem_append.1 hu with hu | hu
    · exact ih u hu
    · rw [List.mem_singleton.1 hu, ← hn]
      exact unassignedCount_le hw
  | unprepared _ _ ih | turn _ _ _ _ ih | bestSaved _ ih | resetScores _ ih => exact ih

/-! ### Whole calls -/

omit [Scalar α] in
/-- A model of `n` variables. -/
def Sized (n : Nat) (s : Solution M α) : Prop :=
  Model.Fitting s.model ∧ Model.variableCount s.model = n

omit [Scalar α] in
theorem keptByUnassign_sized (n : Nat) : KeptByUnassign (M := M) (α := α) (Sized n) := by
  rintro s v m ⟨hs, hn⟩ h
  have hcount := Model.Resettable.variableCount_unassign h
  refine ⟨⟨?_, ?_⟩, hcount.trans hn⟩
  · exact (Model.length_of_unassign h).trans (hs.length_assigned.trans hcount.symm)
  · intro k hk
    rw [(Model.becomes_unassign h).kept] at hk
    exact (hs.length_kept k hk).trans hcount.symm

omit [Scalar α] in
theorem keptByRestore_sized (n : Nat) : KeptByRestore (M := M) (α := α) (Sized n) := by
  rintro s ⟨hs, hn⟩
  unfold Solution.restoreBest
  cases s.best with
  | none => exact ⟨hs, hn⟩
  | some best =>
    have hbecomes := Model.becomes_restoreBest s.model
    have hcount := Model.Resettable.variableCount_restoreBest hs.length_back
    refine ⟨⟨?_, ?_⟩, hcount.trans hn⟩
    · exact (congrArg List.length hbecomes.assigned).trans (hs.length_back.trans hcount.symm)
    · intro k hk
      rw [hbecomes.kept] at hk
      exact (hs.length_kept k hk).trans hcount.symm

/-- One step of a call is a step of a run. -/
theorem Observed.exists_step {w : World M α} {exhausted : Nat}
    {r : Except Nat (Option (Proposal V α))} {t : Orchestrator S α × World M α}
    (h : Observed M n o us) (hw : Sized n w.solution)
    (hrun : phaseStep exhausted (o, w) = .ok r t) : ∃ us', Observed M n t.1 us' := by
  by_cases hconstruction : o.phase = .construction
  · exact ⟨_, h.construction hconstruction hw.1 hw.2 hrun⟩
  by_cases hrestart : o.phase = .restart
  · exact ⟨_, h.restart hrestart hrun⟩
  · have hturn := h.turn w exhausted ⟨hconstruction, hrestart⟩
    rw [Attempt.after_of_ok hrun] at hturn
    exact ⟨us, hturn⟩

/-- The steps of a call are steps of a run, if the stages keep the number of variables. -/
theorem Observed.exists_steps {w : World M α} {exhausted fuel : Nat} {p? : Option (Proposal V α)}
    {t : Orchestrator S α × World M α}
    (hS : Strategy.Selects S (Sized (M := M) (α := α) n) fun _ _ => True)
    (h : Observed M n o us) (hw : Sized n w.solution)
    (hrun : steps exhausted fuel (o, w) = .ok p? t) : ∃ us', Observed M n t.1 us' := by
  induction fuel generalizing exhausted o us w with
  | zero => cases hrun
  | succ fuel ih =>
    have hkept := phaseStep_leads (I := Sized n) hS
      (.inl (keptByUnassign_sized n)) (fun h : False => h.elim) (fun _ _ _ => trivial) exhausted
    have hstart : Between (Sized n) False o w.solution :=
      ⟨hw, fun h => h.elim, fun _ => keptByUnassign_sized n⟩
    rw [steps] at hrun
    cases hstep : (phaseStep exhausted (o, w) :
        EStateM.Result Failure _ (Except Nat (Option (Proposal V α)))) with
    | error e t' => rw [Attempt.bind_of_error hstep] at hrun; cases hrun
    | ok r t' =>
      rw [Attempt.bind_of_ok hstep] at hrun
      obtain ⟨us', h'⟩ := h.exists_step hw hstep
      have hpost := hkept.of_ok (s := (o, w)) hstart hstep
      cases r with
      | ok p?' =>
        cases hrun
        exact ⟨us', h'⟩
      | error more =>
        have hbetween : Between (Sized n) False t'.1 t'.2.solution := hpost
        exact ih h' hbetween.holds hrun

end

end

end Orchestrator

/-! ## What a restart leaves -/

/-- Every cell of the tables is at one. -/
def Scores.AllOne [Scalar α] (s : Scores α) : Prop :=
  (∀ row ∈ s.transitions, ∀ score ∈ row, score = 1) ∧ ∀ pair ∈ s.outcomes, pair = (1, 1)

theorem Scores.allOne_reset [Scalar α] (s : Scores α) : s.reset.AllOne := by
  refine ⟨fun row hrow score hscore => ?_, fun pair hpair => List.eq_of_mem_replicate hpair⟩
  rw [List.eq_of_mem_replicate hrow] at hscore
  exact List.eq_of_mem_replicate hscore

/-- The score tables of a strategy; construction has none. -/
def BasicStrategy.scores? : BasicStrategy G α → Option (Scores α)
  | hillClimbing s => some s.heuristic.sequence.scores
  | greatDeluge s => some s.heuristic.sequence.scores
  | simulatedAnnealing s => some s.heuristic.sequence.scores
  | group s => some s.heuristic.sequence.scores
  | construction _ => none

variable [Scalar α] [Model M V α] [MoveGenerator G M V α]

theorem BasicStrategy.allOne_resetScores (b : BasicStrategy G α) {scores : Scores α}
    (h : (Strategy.resetScores M b).scores? = some scores) : scores.AllOne := by
  cases b with
  | construction s => cases h
  | hillClimbing s | greatDeluge s | simulatedAnnealing s | group s =>
    obtain rfl := Option.some.inj h
    exact Scores.allOne_reset _

namespace Orchestrator

variable [Model.Resettable M] {o : Orchestrator (BasicStrategy G α) α} {us : List Nat} {n : Nat}

/-- What a restart leaves behind: nothing is assigned, no stage has learned anything, and the best
state is as it was. -/
structure Restarted (before after : Orchestrator (BasicStrategy G α) α × World M α) : Prop where
  restarts : after.1.restarts = before.1.restarts + 1
  assigned : assigned after.2.solution.model =
    Table.blank (Model.variableCount before.2.solution.model)
  scores : ∀ stage ∈ after.1.stages, ∀ scores, stage.strategy.scores? = some scores → scores.AllOne
  best : after.2.solution.best = before.2.solution.best
  kept : kept after.2.solution.model = kept before.2.solution.model

/-- A restart does its work even if construction cannot be entered after it. -/
theorem restarted (hphase : o.phase = .restart) (exhausted : Nat) (w : World M α)
    (hw : Model.Fitting w.solution.model) :
    Restarted (o, w) ((phaseStep exhausted : Act (Orchestrator (BasicStrategy G α) α) M α
      (Except Nat (Option (Proposal V α)))).after (o, w)) := by
  have hspec := restartStep_spec (M := M) (V := V) (s := w.solution) exhausted hphase
    (Model.unassign_range_ensures hw.length_assigned)
  have hscores : ∀ stage ∈ (o.afresh M).stages, ∀ scores, stage.strategy.scores? = some scores →
      scores.AllOne := by
    intro stage hstage scores hsome
    obtain ⟨old, -, rfl⟩ := List.mem_map.1 hstage
    exact old.strategy.allOne_resetScores (M := M) hsome
  unfold Attempt.after
  cases hrun : (phaseStep exhausted (o, w) :
      EStateM.Result Failure _ (Except Nat (Option (Proposal V α)))) with
  | ok r t =>
    obtain ⟨-, ho, ⟨hbecomes, -⟩, hs⟩ := hspec.of_ok (s := (o, w)) ⟨rfl, rfl⟩ hrun
    exact ⟨by rw [ho]; rfl, hbecomes.assigned, by rw [ho]; exact hscores, by rw [hs],
      hbecomes.kept⟩
  | error e t =>
    obtain ⟨⟨-, h⟩ | ⟨ho, hbecomes, -⟩, hs⟩ := hspec.of_error (s := (o, w)) ⟨rfl, rfl⟩ hrun
    · exact h.elim
    · exact ⟨by rw [ho]; rfl, hbecomes.assigned, by rw [ho]; exact hscores, by rw [hs],
        hbecomes.kept⟩

/-- Over any run an orchestrator remembers the least count of unassigned variables that it has seen
since it was prepared or has restarted, and how many observations ago it was first seen. An
observation turns construction to a restart exactly if that is as many as the limit by now, which it
never was before; otherwise there is an offer, or the first stage takes over. So an episode of
construction ends within `(n + 1) * limit + 1` observations on models of `n` variables. Any other
restart is due to a stage that stands for one and has taken over, and no step in another phase
restarts. A restart takes every variable its value and sets all scores of the stages back to one, but
leaves the best state alone. Whole calls are parts of such runs. -/
theorem stall_detection (h : Observed M n o us) :
    (o.Watches us ∧ us.length ≤ (n + 1) * o.restartLimit + 1) ∧
    (o.phase = .construction → ∀ (exhausted : Nat) (w : World M α),
      match (phaseStep exhausted (o, w) :
        EStateM.Result Failure _ (Except Nat (Option (Proposal V α)))) with
      | .ok r left => left.2.solution = w.solution ∧
        Judged exhausted o w.solution.model (us ++ [Model.unassignedCount w.solution.model]) r left.1
      | .error e _ => ∃ f, e = .fault f) ∧
    (o.DueFor us ∧ (o.phase ≠ .restart → ∀ (exhausted : Nat) (w : World M α),
      o.Steers (us ++ [Model.unassignedCount w.solution.model])
        ((phaseStep exhausted : Act (Orchestrator (BasicStrategy G α) α) M α
          (Except Nat (Option (Proposal V α)))).after (o, w)).1)) ∧
    (o.phase = .restart → ∀ (exhausted : Nat) (w : World M α), Model.Fitting w.solution.model →
      Restarted (o, w) ((phaseStep exhausted : Act (Orchestrator (BasicStrategy G α) α) M α
        (Except Nat (Option (Proposal V α)))).after (o, w))) ∧
    ∀ (w : World M α) (p? : Option (Proposal V α)) (left : _), Sized n w.solution →
      select (o, w) = .ok p? left → ∃ us', Observed M n left.1 us' := by
  have hwatches := h.watches
  refine ⟨⟨hwatches, length_le_of_sinceLeast_lt h.counts_le hwatches.before⟩, fun hphase k w => ?_,
    ⟨h.dueFor, phaseStep_steers hwatches⟩, restarted, fun w p? left hw hrun => ?_⟩
  · cases hrun : (phaseStep k (o, w) :
        EStateM.Result Failure _ (Except Nat (Option (Proposal V α)))) with
    | ok r left =>
      obtain ⟨-, hjudged, hsolution⟩ := constructionStep_judged hwatches hphase hrun
      exact ⟨hsolution, hjudged⟩
    | error e left => exact constructionStep_faults hphase hrun
  · have hS := BasicStrategy.selects (G := G) MoveGenerator.proposes_any
      (keptByRestore_sized (M := M) (α := α) n)
    exact h.exists_steps (hS.mono fun _ _ _ => trivial) hw hrun

/-- A step of a call that is taken on its own. -/
def oneStep : Act (Orchestrator (BasicStrategy (Generator Empty ℚ) ℚ) ℚ) (Penalty ℚ) ℚ
    (Except Nat (Option (Proposal Nat ℚ))) :=
  phaseStep 0

/-- An orchestrator of one stage, which restarts if two calls in a row leave as much unassigned. -/
def impatient (phase : Phase) : Orchestrator (BasicStrategy (Generator Empty ℚ) ℚ) ℚ where
  construction := .of .standard
  stages := [⟨0, phase, .simulatedAnnealing shortAnnealing⟩]
  phase := .construction
  current := 0
  restartLimit := 1
  lastUnassigned := none
  stalled := 0
  restarts := 0

theorem observed_impatient (n : Nat) (phase : Phase) :
    Observed (Penalty ℚ) n (impatient phase) [] := by
  have hof : Orchestrator.of (.of .standard) [⟨0, phase, .simulatedAnnealing shortAnnealing⟩] 1 =
      .ok (impatient phase) := by
    simp [Orchestrator.of, firstTie?, impatient]
  exact .new hof

/-- One variable that has no value. -/
def openVariable : World (Penalty ℚ) ℚ :=
  .ofSolution (.ofModel ⟨[[0, 1]], [none], none, 0⟩) (.standard 0) none

/-- The impatient orchestrator after its first call, whose proposal is not committed. -/
def waitingOnce : Orchestrator (BasicStrategy (Generator Empty ℚ) ℚ) ℚ :=
  (oneStep.after (impatient .simulatedAnnealing, openVariable)).1

/-- The second call finds as much unassigned as the first one. -/
theorem stall_detection_impatient :
    let stuck := oneStep.after (waitingOnce, openVariable)
    Observed (Penalty ℚ) 1 stuck.1 [1, 1] ∧ stuck.1.phase = .restart ∧
      stuck.1.lastUnassigned = some 1 ∧ stuck.1.stalled = 1 ∧
      Restarted (stuck.1, openVariable) (oneStep.after (stuck.1, openVariable)) := by
  have hfitting : Model.Fitting openVariable.solution.model :=
    Penalty.fitting_of_kept fun k hk => by cases hk
  obtain ⟨first, hfirst⟩ := Attempt.exists_ok_after
    (x := oneStep) (s := (impatient .simulatedAnnealing, openVariable)) (by decide +kernel)
  obtain ⟨second, hsecond⟩ := Attempt.exists_ok_after
    (x := oneStep) (s := (waitingOnce, openVariable)) (by decide +kernel)
  have hobserved := ((observed_impatient 1 .simulatedAnnealing).construction rfl hfitting rfl
    hfirst).construction (by decide +kernel) hfitting rfl hsecond
  obtain ⟨⟨hwatches, -⟩, -, -, hrestarted, -⟩ := stall_detection hobserved
  have hphase : (oneStep.after (waitingOnce, openVariable)).1.phase = .restart := by decide +kernel
  exact ⟨hobserved, hphase, hwatches.lastUnassigned, hwatches.stalled,
    hrestarted hphase 0 openVariable hfitting⟩

/-- A stage that stands for a restart brings one about when it takes over, no matter how long the
least count is ago. -/
theorem restart_before_limit :
    let entered := oneStep.after (impatient .restart, oneVariable)
    Observed (Penalty ℚ) 1 entered.1 [0] ∧ entered.1.stalled < entered.1.restartLimit ∧
      (oneStep.after entered).1.restarts = entered.1.restarts + 1 := by
  have hfitting : Model.Fitting oneVariable.solution.model :=
    Penalty.fitting_of_kept fun k hk => by cases hk
  obtain ⟨r, hrun⟩ := Attempt.exists_ok_after
    (x := oneStep) (s := (impatient .restart, oneVariable)) (by decide +kernel)
  exact ⟨(observed_impatient 1 .restart).construction rfl hfitting rfl hrun, by decide +kernel,
    by decide +kernel⟩

end Orchestrator

end LocalSearch
