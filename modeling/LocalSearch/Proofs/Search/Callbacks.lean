import LocalSearch.Proofs.Search.Iterations
import LocalSearch.Proofs.Selection.Discretion
/-!
# Callbacks

The hooks and the extensions are told of the course of a search, and only of that: that it starts,
every commit that is applied, and how it ends.

* `Engine.Told`: what the hooks and the extensions of an engine were told since a world.
* `Engine.Silent`: nobody is told anything. What is left are the places where somebody is told.
* `Engine.appliedByTurn`, `Solver.Trace`: the commits that the steps of a search apply, by what they
  do to the model and not by what is told of them.
* `Engine.Unprepared`: the search fails before it is announced.
* `Solver.Accounted`: what was told of the search so far are the commits that it has applied.
  `Accounted.work` is one step, and `accounted_of_trace` the induction over the steps of a search.
-/

namespace LocalSearch

open Act
open Attempt (after_bind_of_ok after_of_error after_of_ok bind_of_error bind_of_ok fixes_bind
  fixes_ite fixes_when)

variable {S M V α β : Type}

/-! ## Audiences -/

/-- Everybody on a list is told one call after the other. -/
def announced (names : List String) (calls : List (Call α)) : List (String × Call α) :=
  calls.flatMap fun call => names.map (·, call)

theorem announced_append (names : List String) (calls more : List (Call α)) :
    announced names (calls ++ more) = announced names calls ++ announced names more :=
  List.flatMap_append

/-- The names of the hooks that want to be told. -/
def Observers.listening (o : Observers V α) : List String :=
  o.hooks.filterMap Hook.name

/-- The names of the extensions that want to be told. -/
def Extensions.listening (e : Extensions) : List String :=
  (e.members.filter (!·.silent)).map Extension.name

theorem Observers.notices_eq (o : Observers V α) (notice : String → Notice α) :
    o.notices notice = o.listening.map notice := by
  unfold notices listening
  rw [List.map_filterMap]

theorem Extensions.notices_eq (e : Extensions) (notice : String → Notice α) :
    e.notices notice = e.listening.map notice := by
  unfold notices listening
  rw [List.map_map]
  rfl

variable {audience : Audience} {notice : String → Notice α} {call : Call α}

/-- What an audience hears of notices that are a call for it. -/
theorem filterMap_map_notice (names : List String)
    (h : ∀ name, Notice.call? audience (notice name) = some (name, call)) :
    (names.map notice).filterMap (Notice.call? audience) = announced names [call] := by
  rw [List.filterMap_map, announced, List.flatMap_singleton, ← List.filterMap_eq_map]
  exact List.filterMap_congr fun name _ => h name

theorem filterMap_map_notice_of_none (names : List String)
    (h : ∀ name, Notice.call? audience (notice name) = none) :
    (names.map notice).filterMap (Notice.call? audience) = [] := by
  refine List.filterMap_eq_nil_iff.2 fun n hn => ?_
  obtain ⟨name, -, rfl⟩ := List.mem_map.1 hn
  exact h name

/-- Questions to the guards are no calls. -/
theorem Observers.call?_questions (o : Observers V α) (iteration : Nat) (p : Proposal V α)
    (audience : Audience) :
    ∀ notice ∈ o.questions iteration p, Notice.call? audience notice = .none := by
  intro notice hnotice
  obtain ⟨guard, -, hguard⟩ := List.mem_filterMap.1 hnotice
  obtain ⟨name, -, rfl⟩ := Option.map_eq_some_iff.1 hguard
  cases audience <;> rfl

theorem World.fixes_saveBest [Scalar α] [Model M V α] :
    Attempt.Fixes World.heard (World.saveBest : Attempt (World M α) Unit) := by
  unfold World.saveBest
  refine fixes_bind (fun _ => Attempt.ensures_focus fun _ hw => Attempt.ensures_of
    (fun _ _ _ _ _ => hw) fun _ _ _ _ _ => hw) fun _ => Attempt.fixes_modify fun w => ?_
  exact World.heard_tell_of_none (Solution.call?_notices fun audience _ _ => by
    cases audience <;> rfl)

namespace Engine

/-! ## Silent operations -/

/-- The engine keeps its hooks and its extensions, and they are told nothing. -/
abbrev Silent (x : Act (Engine S M V α) M α β) : Prop :=
  Attempt.Fixes (fun t => (t.1.observers.hooks, t.1.extensions, t.2.heard)) x

theorem silent_onStrategy {x : Act S M α β} (h : Discreet x) :
    Silent (onStrategy x : Act (Engine S M V α) M α β) := by
  rintro _
  refine Attempt.ensures_focus fun t ht => ?_
  refine (h.heard t.2.heard).mono (fun _ hs => by rw [hs]) (fun _ _ hs => ?_) fun _ hs => ?_
  · exact (congrArg (t.1.observers.hooks, t.1.extensions, ·) hs).trans ht
  · exact (congrArg (t.1.observers.hooks, t.1.extensions, ·) hs).trans ht

theorem silent_onWorld {x : Attempt (World M α) β} (h : Attempt.Fixes World.heard x) :
    Silent (onWorld x : Act (Engine S M V α) M α β) := by
  rintro _
  refine Attempt.ensures_focus fun t ht => ?_
  refine (h t.2.heard).mono (fun _ hs => by rw [hs]) (fun _ _ hs => ?_) fun _ hs => ?_
  · exact (congrArg (t.1.observers.hooks, t.1.extensions, ·) hs).trans ht
  · exact (congrArg (t.1.observers.hooks, t.1.extensions, ·) hs).trans ht

@[simp]
theorem silent_solution : Silent (solution : Act (Engine S M V α) M α (Solution M α)) :=
  fun _ _ hs => hs

@[simp]
theorem silent_report (level : Level) (name : String)
    (fields : Unit → List (String × FieldValue α)) :
    Silent (report level name fields : Act (Engine S M V α) M α Unit) :=
  Attempt.fixes_modify fun _ => rfl

/-- The extensions hear that they are to prepare themselves, which is not part of the course. -/
theorem silent_initExtensions :
    Silent (onExtensions Extensions.init : Act (Engine S M V α) M α Unit) := by
  have hinit : Attempt.Fixes (fun t => (t.1, t.2.heard))
      (Extensions.init : Act Extensions M α Unit) :=
    fixes_initExtensions fun t name => by
      rw [World.heard_tell_of_none fun audience notice hnotice => ?_]
      rw [List.mem_singleton.1 hnotice]
      cases audience <;> rfl
  rintro _
  refine Attempt.ensures_focus fun t ht => ?_
  refine (hinit (t.1.extensions, t.2.heard)).mono (fun _ hs => by rw [hs]) (fun _ _ hs => ?_)
    fun _ hs => ?_
  · exact (congrArg (t.1.observers.hooks, ·) hs).trans ht
  · exact (congrArg (t.1.observers.hooks, ·) hs).trans ht

section

variable [Scalar α] [Model M V α] [Strategy S M V α]

omit [Scalar α] [Model M V α] [Strategy S M V α] in
theorem silent_count (time : α) : Silent (count time : Act (Engine S M V α) M α Unit) :=
  Attempt.fixes_modify fun t => by
    have hheard : (t.2.update time).heard = t.2.heard :=
      World.heard_tell_of_none (Solution.call?_notices fun audience _ _ => by
        cases audience <;> rfl)
    rw [hheard]

theorem silent_saveIfBetter : Silent (saveIfBetter : Act (Engine S M V α) M α Unit) := by
  have hsave : Silent (saveBest : Act (Engine S M V α) M α Unit) := by
    unfold saveBest
    refine fixes_bind (by simp) fun before => ?_
    refine fixes_bind (silent_onWorld World.fixes_saveBest) fun _ => ?_
    refine fixes_bind (silent_onStrategy (discreet_change _)) fun _ => ?_
    refine fixes_bind (by simp) fun s => ?_
    exact fixes_when (by simp) fun _ => by simp
  unfold saveIfBetter
  refine fixes_bind (by simp) fun (e, w) => fixes_ite ?_ (by simp)
  exact fixes_bind (by simp) fun _ => fixes_ite hsave (by simp)

omit [Scalar α] [Model M V α] in
theorem silent_select (hS : Strategy.Discreet S M) :
    Silent (select : Act (Engine S M V α) M α (Option (Proposal V α))) := by
  intro c
  have hshown (t : Engine S M V α × World M α) (p : Proposal V α) :
      (t.2.tell (t.1.observers.questions t.2.solution.iteration p)).heard = t.2.heard :=
    World.heard_tell_of_none (t.1.observers.call?_questions t.2.solution.iteration p)
  refine ensures_select (silent_onStrategy hS.select c) (fun _ h => h) (fun t p kept h _ => ?_)
    fun t p fault h _ => ?_
  · exact (congrArg (t.1.observers.hooks, t.1.extensions, ·) (hshown t p)).trans h
  · exact (congrArg (t.1.observers.hooks, t.1.extensions, ·) (hshown t p)).trans h

end

/-! ## What everybody was told -/

/-- Since the world `w`, the hooks and the extensions of the engine `e` were told these calls, in
this order and no others. The engine still has them. -/
structure Told (e : Engine S M V α) (w : World M α) (hooks extensions : List (Call α))
    (t : Engine S M V α × World M α) : Prop where
  same_hooks : t.1.observers.hooks = e.observers.hooks
  same_extensions : t.1.extensions = e.extensions
  hooks : t.2.heard .hooks = w.heard .hooks ++ announced e.observers.listening hooks
  extensions : t.2.heard .extensions =
    w.heard .extensions ++ announced e.extensions.listening extensions

variable {e : Engine S M V α} {w : World M α} {hooks extensions : List (Call α)}
  {t : Engine S M V α × World M α} {E : Engine S M V α × World M α → Prop}

theorem Told.refl : Told e w [] [] (e, w) :=
  ⟨rfl, rfl, (List.append_nil _).symm, (List.append_nil _).symm⟩

theorem Silent.told {x : Act (Engine S M V α) M α β} (hx : Silent x) :
    Attempt.Ensures (Told e w hooks extensions) x (fun _ => Told e w hooks extensions)
      (Told e w hooks extensions) :=
  (Attempt.Fixes.ensures hx fun c => c.1 = e.observers.hooks ∧ c.2.1 = e.extensions ∧
    c.2.2 .hooks = w.heard .hooks ++ announced e.observers.listening hooks ∧
    c.2.2 .extensions = w.heard .extensions ++ announced e.extensions.listening extensions).mono
      (fun _ h => ⟨h.same_hooks, h.same_extensions, h.hooks, h.extensions⟩)
      (fun _ _ h => ⟨h.1, h.2.1, h.2.2.1, h.2.2.2⟩) fun _ h => ⟨h.1, h.2.1, h.2.2.1, h.2.2.2⟩

/-- Telling the hooks adds one call for them. -/
theorem tellHooks_told (call : Call α)
    (hhooks : ∀ name, Notice.call? .hooks (notice name) = some (name, call))
    (hextensions : ∀ name, Notice.call? .extensions (notice name) = none) :
    Attempt.Ensures (Told e w hooks extensions)
      (tellHooks notice : Act (Engine S M V α) M α Unit)
      (fun _ => Told e w (hooks ++ [call]) extensions) E :=
  Attempt.ensures_modify fun t h => by
    refine ⟨h.same_hooks, h.same_extensions, ?_, ?_⟩
    · have hlistening : t.1.observers.listening = e.observers.listening :=
        congrArg (List.filterMap Hook.name) h.same_hooks
      rw [World.heard_tell, Observers.notices_eq, filterMap_map_notice _ hhooks, h.hooks,
        hlistening, announced_append, List.append_assoc]
    · rw [World.heard_tell, Observers.notices_eq, filterMap_map_notice_of_none _ hextensions,
        List.append_nil, h.extensions]

/-- Telling the extensions adds one call for them. -/
theorem tellExtensions_told (call : Call α)
    (hhooks : ∀ name, Notice.call? .hooks (notice name) = none)
    (hextensions : ∀ name, Notice.call? .extensions (notice name) = some (name, call)) :
    Attempt.Ensures (Told e w hooks extensions)
      (tellExtensions notice : Act (Engine S M V α) M α Unit)
      (fun _ => Told e w hooks (extensions ++ [call])) E :=
  Attempt.ensures_modify fun t h => by
    refine ⟨h.same_hooks, h.same_extensions, ?_, ?_⟩
    · rw [World.heard_tell, Extensions.notices_eq, filterMap_map_notice_of_none _ hhooks,
        List.append_nil, h.hooks]
    · rw [World.heard_tell, Extensions.notices_eq, filterMap_map_notice _ hextensions,
        h.extensions, h.same_extensions, announced_append, List.append_assoc]

/-- After these calls, both were told of commits with these effects. -/
abbrev ToldOf (e : Engine S M V α) (w : World M α) (hooks extensions : List (Call α))
    (deltas : List α) : Engine S M V α × World M α → Prop :=
  Told e w (hooks ++ deltas.map .assigned) (extensions ++ deltas.map .assigned)

theorem Told.of_nothing (h : Told e w hooks extensions t) : ToldOf e w hooks extensions [] t := by
  rw [ToldOf, List.map_nil, List.append_nil, List.append_nil]
  exact h

end Engine

/-! ## Commits -/

section

variable [Scalar α] [Model M V α] [Strategy S M V α]

/-- The effect of the commit of a proposal, if it is applied. -/
def Proposal.applied (p : Proposal V α) (model : M) : List α :=
  match p.commit model with
  | .ok (.applied delta) _ => [delta]
  | _ => []

namespace Engine

/-- The effect of the commit that a pass applies, if it applies one. -/
def appliedByPass (t : Engine S M V α × World M α) : List α :=
  match select t with
  | .ok (some p) t => p.applied t.2.solution.model
  | _ => []

/-- The effect of the commit that a turn applies, if it applies one. -/
def appliedByTurn (stop : Bool) (t : Engine S M V α × World M α) : List α :=
  if stop || t.1.termination.holds t.2.solution then [] else appliedByPass t

variable {e : Engine S M V α} {w : World M α} {hooks extensions : List (Call α)}
  {t : Engine S M V α × World M α} {p : Proposal V α} {time : α}

omit [Strategy S M V α] in
theorem ensures_commit (m : M) :
    Attempt.Ensures (fun t => t.2.solution.model = m)
      (onWorld (World.onModel p.commit) : Act (Engine S M V α) M α (Commit α))
      (fun c _ => ∃ m', p.commit m = .ok c m')
      (fun _ => ∃ failure m', p.commit m = .error failure m') :=
  Attempt.ensures_focus fun _ hm => Attempt.ensures_focus fun _ hw =>
    Attempt.ensures_of (fun m₀ c m' hm₀ hrun => ⟨m', by rw [← hm, ← hw, ← hm₀, hrun]⟩)
      fun m₀ failure m' hm₀ hrun => ⟨failure, m', by rw [← hm, ← hw, ← hm₀, hrun]⟩

/-- If a commit is applied, the hooks and the extensions are told of it, even if the state that it
leaves cannot be kept. -/
theorem commit_told (m : M) :
    Attempt.Ensures (fun t => Told e w hooks extensions t ∧ t.2.solution.model = m)
      (commit p time : Act (Engine S M V α) M α Unit)
      (fun _ => ToldOf e w hooks extensions (p.applied m))
      (ToldOf e w hooks extensions (p.applied m)) := by
  have hcommit : Attempt.Ensures (fun t => Told e w hooks extensions t ∧ t.2.solution.model = m)
      (onWorld (World.onModel p.commit) : Act (Engine S M V α) M α (Commit α))
      (fun c t => Told e w hooks extensions t ∧ ∃ m', p.commit m = .ok c m')
      (fun t => Told e w hooks extensions t ∧ ∃ failure m', p.commit m = .error failure m') :=
    ((silent_onWorld (World.fixes_onModel (fun _ _ => rfl) p.commit)).told.mono_pre fun _ h => h.1).and
      ((ensures_commit m).mono_pre fun _ h => h.2)
  unfold commit
  refine Attempt.Ensures.bind (Q := fun _ t => Told e w hooks extensions t ∧
    t.2.solution.model = m) (fun _ h => h) fun before => ?_
  dsimp only
  refine (hcommit.mono (fun _ h => h) (fun _ _ h => h) ?_).bind fun c => ?_
  · rintro t ⟨ht, failure, m', hrun⟩
    have happlied : p.applied m = [] := by simp only [Proposal.applied, hrun]
    rw [happlied]
    exact ht.of_nothing
  refine Attempt.ensures_of_at fun t ⟨ht, m', hrun⟩ => ?_
  refine Attempt.Ensures.bind (Q := fun _ => Told e w hooks extensions)
    (((silent_count time).told.total (Attempt.total_modify _)).mono_pre fun _ h => h ▸ ht)
    fun _ => ?_
  cases c with
  | rejected delta =>
    have happlied : p.applied m = [] := by simp only [Proposal.applied, hrun]
    rw [happlied]
    exact (silent_report _ _ _).told.mono (fun _ h => h) (fun _ _ h => h.of_nothing)
      fun _ h => h.of_nothing
  | applied delta =>
    have happlied : p.applied m = [delta] := by simp only [Proposal.applied, hrun]
    rw [happlied]
    refine ((silent_report _ _ _).told.total (total_report _ _ _)).bind fun _ => ?_
    refine (silent_solution.told.total total_solution).bind fun now => ?_
    refine (tellHooks_told (.assigned delta) (fun _ => rfl) fun _ => rfl).bind fun _ => ?_
    refine (tellExtensions_told (.assigned delta) (fun _ => rfl) fun _ => rfl).bind fun _ => ?_
    exact silent_saveIfBetter.told

theorem pass_told (hS : Strategy.Discreet S M) (h : Told e w hooks extensions t) :
    ToldOf e w hooks extensions (appliedByPass t)
      ((pass time : Act (Engine S M V α) M α Unit).after t) := by
  have hselect : Attempt.Ensures (Told e w hooks extensions) _ _ _ :=
    (silent_select (V := V) hS).told
  unfold appliedByPass
  cases hrun : (select t : EStateM.Result Failure _ (Option (Proposal V α))) with
  | error failure t' =>
    have ht := hselect.of_error h hrun
    rw [pass_of_select_error hrun]
    exact ht.of_nothing
  | ok p? t' =>
    have ht := hselect.of_ok h hrun
    cases p? with
    | none =>
      have hidle : Silent (do
          let iteration := (← Act.solution).iteration
          Act.report .trace "no_neighbour" fun _ => [("iteration", .count iteration)]
          count time : Act (Engine S M V α) M α Unit) :=
        fixes_bind (by simp) fun _ => fixes_bind (by simp) fun _ => silent_count time
      unfold pass
      rw [after_bind_of_ok hrun]
      exact (hidle.told.after ht).of_nothing
    | some p =>
      rw [pass_of_select_some hrun]
      exact (commit_told t'.2.solution.model).after ⟨ht, rfl⟩

/-- A turn tells the hooks and the extensions of the commit that it applies, however it ends. -/
theorem turn_told (hS : Strategy.Discreet S M) (stop : Bool) (time : α)
    (h : Told e w hooks extensions t) :
    ToldOf e w hooks extensions (appliedByTurn stop t)
      ((turn stop time : Act (Engine S M V α) M α (Option Ending)).after t) := by
  obtain ⟨e', w'⟩ := t
  unfold appliedByTurn
  cases stop with
  | true => exact h.of_nothing
  | false =>
    cases hdone : e'.termination.holds w'.solution with
    | true =>
      rw [after_of_ok (turn_eq_done time hdone)]
      exact h.of_nothing
    | false =>
      rw [after_turn hdone]
      exact pass_told hS h

/-! ## The opening -/

/-- The search fails before it is announced: its strategy or an extension cannot be prepared, or the
event that it starts is kept and there is no total value for it. -/
inductive Unprepared (e : Engine S M V α) (w : World M α) : Prop
  | strategy {failure : Failure} {t : Engine S M V α × World M α}
    (hstrategy : onStrategy Strategy.init (e, w) = .error failure t)
  | extension {failure : Failure} {t t' : Engine S M V α × World M α}
    (hstrategy : onStrategy Strategy.init (e, w) = .ok () t)
    (hextensions : onExtensions Extensions.init t = .error failure t')
  | total {t t' : Engine S M V α × World M α}
    (hstrategy : onStrategy Strategy.init (e, w) = .ok () t)
    (hextensions : onExtensions Extensions.init t = .ok () t')
    (hkeeps : t'.2.journal.keeps .info = true)
    (htotal : ∀ total, Model.totalValue t'.2.solution.model ≠ .ok total)

variable (e w) in
theorem opening_of_unprepared (hS : Strategy.Discreet S M) (h : Unprepared e w) :
    ∃ failure t, opening (e, w) = .error failure t ∧ Told e w [] [] t := by
  have hinit : Attempt.Ensures (· = (e, w)) _ _ _ :=
    (silent_onStrategy hS.init).told.mono_pre fun _ h => h ▸ Told.refl
  cases h with
  | @strategy failure t hstrategy =>
    exact ⟨failure, t, bind_of_error hstrategy, hinit.of_error rfl hstrategy⟩
  | @extension failure t t' hstrategy hextensions =>
    exact ⟨failure, t', (bind_of_ok hstrategy).trans (bind_of_error hextensions),
      silent_initExtensions.told.of_error (hinit.of_ok rfl hstrategy) hextensions⟩
  | @total t t' hstrategy hextensions hkeeps htotal =>
    cases hvalue : (Model.totalValue t'.2.solution.model : Except Fault α) with
    | ok total => exact (htotal total hvalue).elim
    | error fault =>
      refine ⟨.fault fault, t', ?_,
        silent_initExtensions.told.of_ok (hinit.of_ok rfl hstrategy) hextensions⟩
      rw [opening_eq]
      have hget : (get : Act (Engine S M V α) M α _) t' = .ok t' t' := rfl
      rw [bind_of_ok hstrategy, bind_of_ok hextensions, bind_of_ok hget]
      dsimp only
      rw [if_pos hkeeps, hvalue]
      rfl

theorem announce_told (iteration : Nat) : Attempt.Ensures (Told e w [] [])
    (announce iteration : Act (Engine S M V α) M α Bool)
    (fun _ => Told e w [.started] []) (Told e w [.started] []) := by
  unfold announce
  refine (tellHooks_told (.started) (fun _ => rfl) fun _ => rfl).bind fun _ => ?_
  refine silent_saveIfBetter.told.bind fun _ => Silent.told (fixes_bind (by simp) fun s => ?_)
  exact fixes_ite (fixes_bind (by simp) fun _ => by simp) (by simp)

/-- A search that is prepared is announced, even if the opening fails afterwards. -/
theorem opening_of_prepared (hS : Strategy.Discreet S M) (h : ¬ Unprepared e w) :
    Told e w [.started] [] ((opening : Act (Engine S M V α) M α Bool).after (e, w)) := by
  cases hstrategy : (onStrategy Strategy.init (e, w) : EStateM.Result Failure _ Unit) with
  | error failure t => exact (h (.strategy hstrategy)).elim
  | ok _ t =>
    cases hextensions : (onExtensions Extensions.init t : EStateM.Result Failure _ Unit) with
    | error failure t' => exact (h (.extension hstrategy hextensions)).elim
    | ok _ t' =>
      have ht : Told e w [] [] t' := silent_initExtensions.told.of_ok
        ((silent_onStrategy hS.init).told.of_ok .refl hstrategy) hextensions
      have htail : Attempt.Ensures (· = t')
          (announce t'.2.solution.iteration : Act (Engine S M V α) M α Bool)
          (fun _ => Told e w [.started] []) (Told e w [.started] []) :=
        (announce_told _).mono_pre fun _ h => h ▸ ht
      rw [opening_eq, after_bind_of_ok hstrategy, after_bind_of_ok hextensions]
      refine Attempt.Ensures.after (P := (· = t')) (Attempt.ensures_get_bind_at ?_) rfl
      dsimp only
      split
      · rename_i hkeeps
        refine Attempt.ensures_lift_bind_or (fun _ hnone _ => ?_) fun total _ => ?_
        · exact (h (.total hstrategy hextensions hkeeps hnone)).elim
        · exact (((silent_report _ _ _).told.total (total_report _ _ _)).mono_pre
            fun _ h => h ▸ ht).bind fun _ => announce_told _
      · exact htail

end Engine

end

/-! ## The end -/

/-- The last call for the hooks of a search that has ended in a state. -/
def Call.ending : SolverState → List (Call α)
  | .stopped => [.stopped]
  | .done => [.finished]
  | .failed => [.failed]
  | .idle => []
  | .running => []

/-- The last call for the extensions, unless the search has failed. -/
def Call.closing : SolverState → List (Call α)
  | .stopped => [.done]
  | .done => [.done]
  | .failed => []
  | .idle => []
  | .running => []

namespace Engine

variable {e : Engine S M V α} {w : World M α} {hooks extensions : List (Call α)}

theorem fail_told (failure : Failure) :
    Attempt.Ensures (Told e w hooks extensions)
      (fail failure : Act (Engine S M V α) M α Unit)
      (fun _ => Told e w (hooks ++ Call.ending .failed) (extensions ++ Call.closing .failed))
      (Told e w (hooks ++ Call.ending .failed) (extensions ++ Call.closing .failed)) := by
  have hclosing : extensions ++ Call.closing .failed = extensions := List.append_nil _
  rw [hclosing]
  unfold fail
  refine (silent_solution.told.total total_solution).bind fun s => ?_
  refine ((silent_report _ _ _).told.total (total_report _ _ _)).bind fun _ => ?_
  exact tellHooks_told (.failed) (fun _ => rfl) fun _ => rfl

theorem close_told [Scalar α] (ending : Ending) (state : String) (time : α) :
    Attempt.Ensures (Told e w hooks extensions)
      (close ending state time : Act (Engine S M V α) M α Unit)
      (fun _ => Told e w (hooks ++ Call.ending (.ofEnding ending))
        (extensions ++ Call.closing (.ofEnding ending)))
      (Told e w (hooks ++ Call.ending (.ofEnding ending))
        (extensions ++ Call.closing (.ofEnding ending))) := by
  unfold close
  refine (tellExtensions_told (.done) (fun _ => rfl) fun _ => rfl).bind fun _ => ?_
  refine (silent_solution.told.total total_solution).bind fun s => ?_
  cases ending with
  | stopped =>
    refine (tellHooks_told (.stopped) (fun _ => rfl) fun _ => rfl).bind fun _ => ?_
    exact (silent_report _ _ _).told
  | done =>
    refine (tellHooks_told (.finished) (fun _ => rfl) fun _ => rfl).bind fun _ => ?_
    exact (silent_report _ _ _).told

end Engine

/-! ## Searches -/

/-- There are no variables, also once the model has kept its assignment as the best one. -/
def Model.NoVariables [Model M V α] (m : M) : Prop :=
  Model.variableCount m = 0 ∧ Model.variableCount (Model.saveBest m) = 0

namespace Solver

variable {s s' : Solver S M V α} {e : Engine S M V α} {w : World M α} {deltas : List α}
  {hooks extensions : List (Call α)} {t : Engine S M V α × World M α} {state : SolverState}

/-- The search has ended in a state that is yet to be announced, and everybody was told of it. -/
def ClosedAs (e : Engine S M V α) (w : World M α) (hooks extensions : List (Call α))
    (state : SolverState) (s : Solver S M V α) : Prop :=
  ∃ e', s.worker = some ⟨e', .closed state⟩ ∧
    e.Told w (hooks ++ Call.ending state) (extensions ++ Call.closing state) (e', s.world)

theorem closedAs_workerFails (failure : Failure) (h : e.Told w hooks extensions t) :
    (s.workerFails t.1 t.2 failure).ClosedAs e w hooks extensions .failed := by
  rw [workerFails_eq]
  exact ⟨_, rfl, (Engine.fail_told failure).after h⟩

theorem closedAs_workerCloses [Scalar α] (ending : Ending) (time : α)
    (h : e.Told w hooks extensions t) :
    (s.workerCloses t.1 t.2 ending time).ClosedAs e w hooks extensions (.ofEnding ending) := by
  rw [workerCloses_eq]
  exact ⟨_, rfl, (Engine.close_told ending _ time).after h⟩

variable [Scalar α] [Model M V α] [Strategy S M V α]

/-- The effect of the commit that the next step of the worker applies, if it applies one. -/
def applied (s : Solver S M V α) : List α :=
  match s.worker with
  | some ⟨e, .passing _⟩ => Engine.appliedByTurn s.stopRequested (e, s.world)
  | _ => []

/-- Some steps of a search with the effects of the commits that they apply, in their order. -/
inductive Trace (s : Solver S M V α) : List α → Solver S M V α → Prop
  | refl : Trace s [] s
  | work {deltas : List α} {s' : Solver S M V α} (h : Trace s deltas s') :
    Trace s (deltas ++ s'.applied) s'.work
  | stop {deltas : List α} {s' : Solver S M V α} (h : Trace s deltas s') : Trace s deltas s'.stop

theorem trace_iterate (s : Solver S M V α) (m : Nat) :
    Trace s ((List.range m).flatMap fun k => (work^[k] s).applied) (work^[m] s) := by
  induction m with
  | zero => exact .refl
  | succ m ih =>
    rw [List.range_succ, List.flatMap_append, List.flatMap_singleton, Function.iterate_succ_apply']
    exact ih.work

/-- The search of an engine in a world has ended in a state after commits with these effects, and
everybody was told so. -/
structure Concluded (e : Engine S M V α) (w : World M α) (deltas : List α) (state : SolverState)
    (t : Engine S M V α × World M α) : Prop where
  course : e.Unprepared w ∧ deltas = [] ∧ state = .failed ∧ e.Told w [.failed] [] t ∨
    ¬ e.Unprepared w ∧ state.isFinished = true ∧
      e.Told w (.started :: deltas.map .assigned ++ Call.ending state)
        (deltas.map .assigned ++ Call.closing state) t
  nothing_to_solve : Model.NoVariables w.solution.model → deltas = [] ∧
    ((∃ nothing t, Engine.opening (e, w) = .ok nothing t) → state = .stopped)

/-- A search of an engine in a world, by its stage: it has applied commits with these effects so
far, and that is what everybody was told of it. If there is nothing to solve, it is about to
stop. -/
inductive Accounted (e : Engine S M V α) (w : World M α) (deltas : List α) (s : Solver S M V α) :
    Prop
  | opening (hworker : s.worker = some ⟨e, .opening⟩) (hworld : s.world = w) (hdeltas : deltas = [])
  | passing {e' : Engine S M V α} {k : Nat} (hworker : s.worker = some ⟨e', .passing k⟩)
    (hprepared : ¬ e.Unprepared w)
    (htold : e.Told w (.started :: deltas.map .assigned) (deltas.map .assigned) (e', s.world))
    (hnothing : Model.NoVariables w.solution.model → deltas = [] ∧ s.stopRequested = true)
  | closed {e' : Engine S M V α} {state : SolverState}
    (hworker : s.worker = some ⟨e', .closed state⟩)
    (h : Concluded e w deltas state (e', s.world))
  | ended {e' : Engine S M V α} (hworker : s.worker = some ⟨e', .ended⟩)
    (h : Concluded e w deltas s.state (e', s.world))

theorem Accounted.stop (h : Accounted e w deltas s) : Accounted e w deltas s.stop := by
  cases h with
  | opening hworker hworld hdeltas => exact .opening hworker hworld hdeltas
  | passing hworker hprepared htold hnothing =>
    exact .passing hworker hprepared htold fun hzero => ⟨(hnothing hzero).1, rfl⟩
  | closed hworker h => exact .closed hworker h
  | ended hworker h => exact .ended hworker h

/-- The opening either fails, or leads to the first pass. -/
theorem Accounted.work_opening (hS : Strategy.Discreet S M)
    (hR : Strategy.Restrained (M := M) S) (hworker : s.worker = some ⟨e, .opening⟩) :
    Accounted e s.world [] s.work := by
  by_cases hprepared : e.Unprepared s.world
  · obtain ⟨failure, t, hrun, ht⟩ := Engine.opening_of_unprepared e s.world hS hprepared
    rw [work_of_opening_error hworker hrun]
    obtain ⟨e', hclosed, htold⟩ := closedAs_workerFails (s := s) failure ht
    refine .closed hclosed ⟨.inl ⟨hprepared, rfl, rfl, htold⟩, fun _ => ⟨rfl, ?_⟩⟩
    rintro ⟨nothing, t', hrun'⟩
    cases hrun.symm.trans hrun'
  · have ht := Engine.opening_of_prepared hS hprepared
    cases hrun : (Engine.opening (e, s.world) : EStateM.Result Failure _ Bool) with
    | error failure t =>
      rw [after_of_error hrun] at ht
      rw [work_of_opening_error hworker hrun]
      obtain ⟨e', hclosed, htold⟩ := closedAs_workerFails (s := s) failure ht
      refine .closed hclosed ⟨.inr ⟨hprepared, rfl, htold⟩, fun _ => ⟨rfl, ?_⟩⟩
      rintro ⟨nothing, t', hrun'⟩
      cases hrun.symm.trans hrun'
    | ok nothing t =>
      rw [after_of_ok hrun] at ht
      have hopening := (Engine.opening_counting hR e.termination
        s.world.solution.totalIterations _).of_ok ⟨rfl, rfl, rfl⟩ hrun
      rw [work_of_opening_ok hworker hrun]
      refine .passing rfl hprepared ht fun ⟨hzero, hsaved⟩ => ⟨rfl, ?_⟩
      have hnothing : nothing = true := by
        rcases hopening.2.1 with hmodel | hmodel
        · exact hopening.1.2 (hmodel ▸ hzero)
        · exact hopening.1.2 (hmodel ▸ hsaved)
      simp [hnothing]

theorem Accounted.work_passing (hS : Strategy.Discreet S M) {e' : Engine S M V α} {k : Nat}
    (hworker : s.worker = some ⟨e', .passing k⟩) (hprepared : ¬ e.Unprepared w)
    (htold : e.Told w (.started :: deltas.map .assigned) (deltas.map .assigned) (e', s.world))
    (hnothing : Model.NoVariables w.solution.model → deltas = [] ∧ s.stopRequested = true) :
    Accounted e w (deltas ++ s.applied) s.work := by
  have happlied : s.applied = Engine.appliedByTurn s.stopRequested (e', s.world) := by
    unfold applied
    rw [hworker]
  have hturn : e.Told w (.started :: (deltas ++ s.applied).map .assigned)
      ((deltas ++ s.applied).map .assigned)
      ((Engine.turn s.stopRequested (s.clock k) : Act _ M α _).after (e', s.world)) := by
    rw [happlied, List.map_append]
    exact Engine.turn_told hS s.stopRequested (s.clock k) htold
  have hstop (hzero : Model.NoVariables w.solution.model) : deltas ++ s.applied = [] ∧
      Engine.turn s.stopRequested (s.clock k) (e', s.world) =
        .ok (some .stopped) (e', s.world) := by
    obtain ⟨hdeltas, hrequested⟩ := hnothing hzero
    rw [happlied, hdeltas, hrequested]
    exact ⟨rfl, rfl⟩
  cases hrun : (Engine.turn s.stopRequested (s.clock k) (e', s.world) :
      EStateM.Result Failure _ (Option Ending)) with
  | error failure t =>
    rw [after_of_error hrun] at hturn
    rw [work_of_turn_error hworker hrun]
    obtain ⟨e₁, hclosed, htold⟩ := closedAs_workerFails (s := s) failure hturn
    refine .closed hclosed ⟨.inr ⟨hprepared, rfl, htold⟩, fun hzero => ?_⟩
    cases hrun.symm.trans (hstop hzero).2
  | ok ending? t =>
    rw [after_of_ok hrun] at hturn
    cases ending? with
    | none =>
      rw [work_of_turn_none hworker hrun]
      refine .passing rfl hprepared hturn fun hzero => ?_
      cases hrun.symm.trans (hstop hzero).2
    | some ending =>
      rw [work_of_turn_some hworker hrun]
      obtain ⟨e₁, hclosed, htold⟩ := closedAs_workerCloses (s := s) ending (s.clock k) hturn
      refine .closed hclosed ⟨.inr ⟨hprepared, ?_, htold⟩, fun hzero =>
        ⟨(hstop hzero).1, fun _ => ?_⟩⟩
      · cases ending <;> rfl
      · cases hrun.symm.trans (hstop hzero).2
        rfl

/-- A step applies at most one commit, and everybody is told of it. -/
theorem Accounted.work (hS : Strategy.Discreet S M)
    (hR : Strategy.Restrained (M := M) S) (h : Accounted e w deltas s) :
    Accounted e w (deltas ++ s.applied) s.work := by
  have happlied {e' : Engine S M V α} {stage : WorkerStage} (hworker : s.worker = some ⟨e', stage⟩)
      (hstage : ∀ k, stage ≠ .passing k) : deltas ++ s.applied = deltas := by
    unfold applied
    rw [hworker]
    cases stage with
    | passing k => exact (hstage k rfl).elim
    | opening => exact List.append_nil _
    | closed state => exact List.append_nil _
    | ended => exact List.append_nil _
  cases h with
  | opening hworker hworld hdeltas =>
    rw [happlied hworker nofun, hdeltas, ← hworld]
    exact work_opening hS hR hworker
  | passing hworker hprepared htold hnothing =>
    exact work_passing hS hworker hprepared htold hnothing
  | closed hworker h =>
    rw [happlied hworker nofun, work_of_closed hworker]
    exact .ended rfl h
  | ended hworker h =>
    rw [happlied hworker nofun, work_of_ended hworker]
    exact .ended hworker h

theorem accounted_of_trace (hS : Strategy.Discreet S M)
    (hR : Strategy.Restrained (M := M) S) (h : Accounted e w [] s) (htrace : Trace s deltas s') :
    Accounted e w deltas s' := by
  -- by induction on the steps, from the first one on
  induction htrace with
  | refl => exact h
  | work _ ih => exact ih.work hS hR
  | stop _ ih => exact ih.stop

/-- The callbacks of a search with any strategy, generators and observers. As long as it runs, the
hooks were told that it starts, and they and the extensions were told of the commits that were
applied, in their order. At its end

* either it could not be prepared, which the hooks are told and nothing else, or hooks and
  extensions are told of the state in which it ends, the extensions only if that is no failure;
* without variables nothing was applied, and the search was stopped unless its opening failed. -/
theorem callback_trace {G : Type} [MoveGenerator G M V α]
    {s s₀ s₁ : Solver (AnyStrategy G α) M V α} {e : Engine (AnyStrategy G α) M V α}
    (hengine : s.engine = some e) (hstart : s.start = .ok s₀) (htrace : Trace s₀ deltas s₁) :
    (∀ e₁ k, s₁.worker = some ⟨e₁, .passing k⟩ →
      e.Told s.world (.started :: deltas.map .assigned) (deltas.map .assigned) (e₁, s₁.world)) ∧
    ∀ e₁, s₁.worker = some ⟨e₁, .ended⟩ →
      (e.Unprepared s.world ∧ deltas = [] ∧ s₁.state = .failed ∧
          e.Told s.world [.failed] [] (e₁, s₁.world) ∨
        ¬ e.Unprepared s.world ∧ s₁.state.isFinished = true ∧
          e.Told s.world (.started :: deltas.map .assigned ++ Call.ending s₁.state)
            (deltas.map .assigned ++ Call.closing s₁.state) (e₁, s₁.world)) ∧
      (Model.NoVariables s.world.solution.model → deltas = [] ∧
        ((∃ nothing t, Engine.opening (e, s.world) = .ok nothing t) → s₁.state = .stopped)) := by
  obtain ⟨e', hengine', hworker, hworld⟩ := worker_of_start hstart
  cases hengine.symm.trans hengine'
  have h := accounted_of_trace AnyStrategy.discreet AnyStrategy.restrained
    (.opening hworker hworld rfl) htrace
  refine ⟨fun e₁ k hpassing => ?_, fun e₁ hended => ?_⟩
  · cases h with
    | passing hworker _ htold _ =>
      cases hpassing.symm.trans hworker
      exact htold
    | opening hworker => cases hpassing.symm.trans hworker
    | closed hworker => cases hpassing.symm.trans hworker
    | ended hworker => cases hpassing.symm.trans hworker
  · cases h with
    | ended hworker h =>
      cases hended.symm.trans hworker
      exact ⟨h.course, h.nothing_to_solve⟩
    | opening hworker => cases hended.symm.trans hworker
    | passing hworker => cases hended.symm.trans hworker
    | closed hworker => cases hended.symm.trans hworker

/-- The climber with a limit of two updates, a hook and an extension. -/
def watched : Solver (AnyStrategy (Generator Empty ℚ) ℚ) (Penalty ℚ) Nat ℚ :=
  { bounded with engine := bounded.engine.map fun e => { e with
      observers := ⟨[], [⟨some "hook"⟩]⟩
      extensions := ⟨[⟨"extension", false, false, false, none⟩], false, false⟩ } }

/-- The watched climber before the opening of its search. -/
def watching : Solver (AnyStrategy (Generator Empty ℚ) ℚ) (Penalty ℚ) Nat ℚ :=
  watched.start.toOption.getD watched

/-- The hook and the extension are told of the step to a better state and that the limit is
reached. -/
theorem callback_trace_watched :
    watched.start = .ok watching ∧ Trace watching [-1] (work^[5] watching) ∧
      (work^[5] watching).state = .done ∧
      (work^[5] watching).world.heard .hooks =
        [("hook", .started), ("hook", .assigned (-1)), ("hook", .finished)] ∧
      (work^[5] watching).world.heard .extensions =
        [("extension", .assigned (-1)), ("extension", .done)] := by
  have htrace : Trace watching [-1] (work^[5] watching) := by
    have happlied : ((List.range 5).flatMap fun k => (work^[k] watching).applied) = [-1] := by
      decide +kernel
    exact happlied ▸ trace_iterate watching 5
  have hstage : (work^[5] watching).worker.map Worker.stage = some .ended := by decide +kernel
  have hstate : (work^[5] watching).state = .done := by decide +kernel
  obtain ⟨⟨e₁, stage⟩, hworker, rfl⟩ := Option.map_eq_some_iff.1 hstage
  have hended := (callback_trace (s := watched) rfl rfl htrace).2 e₁ hworker
  rcases hended.1 with ⟨-, hdeltas, -⟩ | ⟨-, -, htold⟩
  · cases hdeltas
  · rw [hstate] at htold
    have hhooks := htold.hooks
    have hextensions := htold.extensions
    dsimp only at hhooks hextensions
    exact ⟨rfl, htrace, hstate, hhooks.trans (by decide +kernel),
      hextensions.trans (by decide +kernel)⟩

/-- A climber with nothing to solve whose only generator cannot be prepared. -/
def refused : Solver (AnyStrategy (Scripted Nat ℚ) ℚ) (Penalty ℚ) Nat ℚ :=
  of (.ofSolution (.ofModel ⟨[], [], none, 0⟩) (.standard 0) none)
    (.of (.basic (.hillClimbing (.of
      ⟨[.of "bad" (.of (.failInit (.error (.internal "no")))) 0], .fresh 1, {}, false⟩ 10))))
    fun _ => 0

/-- A climber whose variable has a value outside its domain, with a journal and a hook. -/
def misplaced : Solver (AnyStrategy (Generator Empty ℚ) ℚ) (Penalty ℚ) Nat ℚ :=
  { climber with
    world := .ofSolution (.ofModel ⟨[[0, 1]], [some 5], none, 0⟩) (.standard 0) (some .info)
    engine := watched.engine }

/-- Without variables a search may fail, and a search that is prepared may fail before it is
announced. -/
theorem failed_before_announced :
    (Model.variableCount refused.world.solution.model = 0 ∧
      ∃ s, refused.solve 3 = .ok (some s) ∧ s.state ≠ .stopped) ∧
    ∃ e t t' s, misplaced.engine = some e ∧
      Engine.onStrategy Strategy.init (e, misplaced.world) = .ok () t ∧
      Engine.onExtensions Extensions.init t = .ok () t' ∧
      misplaced.solve 3 = .ok (some s) ∧ s.world.heard .hooks = [("hook", .failed)] := by
  refine ⟨⟨rfl, ?_⟩, ?_⟩
  · have hends : ((refused.solve 3).toOption.join.map (·.state)) = some .failed := by
      decide +kernel
    obtain ⟨s, hs, hstate⟩ := Option.map_eq_some_iff.1 hends
    refine ⟨s, eq_ok_of_toOption (Option.join_eq_some_iff.1 hs), ?_⟩
    rw [hstate]
    decide
  · have hends : ((misplaced.solve 3).toOption.join.map fun s => s.world.heard .hooks) =
        some [("hook", .failed)] := by
      decide +kernel
    obtain ⟨s, hs, hheard⟩ := Option.map_eq_some_iff.1 hends
    have hsolve := eq_ok_of_toOption (Option.join_eq_some_iff.1 hs)
    exact ⟨_, _, _, s, rfl, rfl, rfl, hsolve, hheard⟩

end Solver

end LocalSearch
