import LocalSearch.Model.Penalty
import LocalSearch.Proofs.Exact
import LocalSearch.Proofs.Selection.Kinds
import LocalSearch.Proofs.Selection.Turn
/-!
# Chains over the life of a strategy

The chain of a strategy stays sound, whatever is asked of the strategy and in whatever order, also
when calls fail, and whoever else learns into its tables. So no pick ever leaves the tables, runs out
of selectors, or repeats a selector that it must not repeat.

* `Notes.Prepared`: what preparing for a search does to the notes.
* `Notes.Fit`: sound notes for given selectors and settings.
* `BasicStrategy.Lives`: what may become of a strategy, down to single attempts of a call.
* `BasicStrategy.exists_choose_of_lives`: the chain is sound, and picks go well.
-/

namespace LocalSearch

open Act

variable {G M V α : Type} [Scalar α]

/-! ## Preparing for a search -/

/-- The notes after a strategy was asked to prepare. The tables are set back once all selectors are
ready. -/
structure Notes.Prepared (n : Notes α) (ready : Bool) (n' : Notes α) : Prop where
  sound : n'.Sound
  count_eq : n'.count = n.count
  config_eq : n'.config = n.config
  scores_eq : n'.scores = if ready then n.scores.reset else n.scores

theorem Notes.Prepared.clear {n n' : Notes α} {ready : Bool} (h : n.Prepared ready n') :
    n.Prepared ready (n'.follow n'.chain.clear) :=
  ⟨h.sound.clear, h.count_eq, h.config_eq, h.scores_eq⟩

section

variable [MoveGenerator G M V α]

/-- Whether all selectors of a sequence can be prepared for a model. -/
def Sequence.ready (s : Sequence G α) (model : M) : Bool :=
  match Sequence.init model s with
  | .ok _ _ => true
  | .error _ _ => false

theorem Heuristic.prepare_ensures (h : Heuristic G α) (model : M) (hn : h.notes.Sound) :
    Attempt.Ensures (· = h)
      (Attempt.focus (·.sequence) (fun h sequence => { h with sequence })
        (Sequence.init model : Attempt (Sequence G α) Unit))
      (fun _ h' => h.notes.Prepared (h.sequence.ready model) h'.notes)
      (fun h' => h.notes.Prepared (h.sequence.ready model) h'.notes) := by
  have hinit := Sequence.init_ensures model h.sequence h.chain
  unfold Sequence.ready
  refine Attempt.ensures_focus fun t ht => ?_
  subst ht
  refine Attempt.ensures_of (fun s _ s' hs hrun => ?_) fun s e s' hs hrun => ?_
  · have hnotes := hinit.of_ok hs hrun
    rw [hs] at hrun
    rw [hrun]
    have hsound := hn.reset
    rw [← hnotes] at hsound
    exact ⟨hsound, congrArg (·.count) hnotes, congrArg (·.config) hnotes,
      congrArg (·.scores) hnotes⟩
  · have hnotes := hinit.of_error hs hrun
    rw [hs] at hrun
    rw [hrun]
    have hsound := hn
    rw [← hnotes] at hsound
    exact ⟨hsound, congrArg (·.count) hnotes, congrArg (·.config) hnotes,
      congrArg (·.scores) hnotes⟩

theorem Heuristic.init_ensures (h : Heuristic G α) (model : M) (hn : h.notes.Sound) :
    Attempt.Ensures (· = h) (Heuristic.init model : Attempt (Heuristic G α) Unit)
      (fun _ h' => h.notes.Prepared (h.sequence.ready model) h'.notes)
      (fun h' => h.notes.Prepared (h.sequence.ready model) h'.notes) := by
  unfold Heuristic.init
  refine (Heuristic.prepare_ensures h model hn).bind fun _ => ?_
  exact Attempt.ensures_modify fun h' hprepared => hprepared.clear

theorem HillClimbing.init_leads (t : HillClimbing G α) (s : Solution M α)
    (hn : t.heuristic.notes.Sound) :
    Leads (At t s) init
      (fun _ t' _ =>
        t.heuristic.notes.Prepared (t.heuristic.sequence.ready s.model) t'.heuristic.notes)
      (fun t' _ => t.heuristic.notes.Prepared (t.heuristic.sequence.ready s.model)
        t'.heuristic.notes) := by
  unfold init
  refine leads_solution_bind_at ?_
  refine Leads.bind (Q := fun _ t' _ => t.heuristic.notes.Prepared
    (t.heuristic.sequence.ready s.model) t'.heuristic.notes) ?_ fun _ => ?_
  · refine leads_within fun t' _ hat => ?_
    rw [hat.1]
    refine Attempt.ensures_focus fun u hu => ?_
    rw [hu.1]
    exact Heuristic.init_ensures t.heuristic s.model hn
  · refine leads_change fun t' _ hprepared => ?_
    -- the mode of the selectors is nothing to the notes
    have hnotes : (restartCount { t' with heuristic := { t'.heuristic with
        sequence := t'.heuristic.sequence.setHillClimbing M true } }).heuristic.notes =
        t'.heuristic.notes := by
      unfold Heuristic.notes restartCount Sequence.setHillClimbing
      rw [List.length_map]
    rw [hnotes]
    exact hprepared

theorem GreatDeluge.init_leads (t : GreatDeluge G α) (s : Solution M α)
    (hn : t.heuristic.notes.Sound) :
    Leads (At t s) init
      (fun _ t' _ =>
        t.heuristic.notes.Prepared (t.heuristic.sequence.ready s.model) t'.heuristic.notes)
      (fun t' _ => t.heuristic.notes.Prepared (t.heuristic.sequence.ready s.model)
        t'.heuristic.notes) := by
  unfold init
  refine leads_solution_bind_at ?_
  refine Leads.bind (Q := fun _ t' _ => t.heuristic.notes.Prepared
    (t.heuristic.sequence.ready s.model) t'.heuristic.notes) ?_ fun _ => ?_
  · refine leads_within fun t' _ hat => ?_
    rw [hat.1]
    refine Attempt.ensures_focus fun u hu => ?_
    rw [hu.1]
    exact Heuristic.init_ensures t.heuristic s.model hn
  · exact leads_change fun t' _ hprepared => hprepared

/-- Annealing still has to ask for the sizes of the domains when the tables are set back. -/
theorem SimulatedAnnealing.init_leads [Model M V α] (t : SimulatedAnnealing G α) (s : Solution M α)
    (hn : t.heuristic.notes.Sound) :
    Leads (At t s) init
      (fun _ t' _ =>
        t.heuristic.notes.Prepared (t.heuristic.sequence.ready s.model) t'.heuristic.notes)
      (fun t' _ => t.heuristic.notes.Prepared (t.heuristic.sequence.ready s.model)
        t'.heuristic.notes) := by
  let Ready : Heuristic G α → Prop := fun h =>
    t.heuristic.notes.Prepared (t.heuristic.sequence.ready s.model) h.notes
  unfold init
  refine leads_solution_bind_at ?_
  refine Leads.bind (Q := fun _ t' _ => Ready t'.heuristic) ?_ fun _ => ?_
  · refine leads_within fun t' _ hat => ?_
    rw [hat.1]
    refine Attempt.ensures_focus fun u hu => ?_
    rw [hu.1]
    exact Heuristic.prepare_ensures t.heuristic s.model hn
  refine leads_lift_bind (fun _ _ h => h) fun size _ => ?_
  refine Leads.bind ((spares_onSchedule _).leads Ready) fun _ => ?_
  exact leads_change fun t' _ hprepared => hprepared.clear

end

/-! ## Group acceptance -/

/-- Sound notes for given selectors and settings. -/
structure Notes.Fit (k : Nat) (config : SequenceConfig) (n : Notes α) : Prop where
  sound : n.Sound
  count_eq : n.count = k
  config_eq : n.config = config

namespace Group

variable [MoveGenerator G M V α] [Model M V α] {k : Nat} {config : SequenceConfig}

/-- The notes of the heuristic are fit. -/
def Fit (k : Nat) (config : SequenceConfig) (g : Group G α) : Prop :=
  g.heuristic.notes.Fit k config

omit [MoveGenerator G M V α] [Model M V α] in
theorem spares_advanceDeluge (reference : α) :
    Spares heuristic (advanceDeluge reference : Act (Group G α) M α Unit) := by
  unfold advanceDeluge
  refine Attempt.fixes_bind (spares_within ?_ _) fun _ => Attempt.fixes_pure _
  exact fun _ _ => rfl

omit [Scalar α] [Model M V α] [MoveGenerator G M V α] in
theorem spares_onAnnealing {β : Type} (schedule : AnnealingSchedule α)
    (x : Act (AnnealingSchedule α) M α β) :
    Spares heuristic (onAnnealing schedule x : Act (Group G α) M α β) := by
  refine spares_within ?_ x
  exact fun _ _ => rfl

omit [Scalar α] [Model M V α] [MoveGenerator G M V α] in
theorem spares_onConstruction {β : Type} (x : Act (Construction α) M α β) :
    Spares heuristic (onConstruction x : Act (Group G α) M α β) := by
  refine spares_within ?_ x
  exact fun _ _ => rfl

omit [MoveGenerator G M V α] in
/-- The vote is nothing to the heuristic. -/
theorem decideByVote_fit {K : Heuristic G α → Prop} (schedule : AnnealingSchedule α)
    (delta total reference : α) :
    Leads (fun g _ => K g.heuristic)
      (decideByVote schedule delta total reference : Act (Group G α) M α Decision)
      (fun _ g _ => K g.heuristic) (fun g _ => K g.heuristic) := by
  unfold decideByVote
  refine leads_get_bind fun g w hg => ?_
  dsimp only
  obtain ⟨judged, random⟩ := schedule.judge total reference delta w.random
  dsimp only
  refine Leads.bind (Q := fun _ g _ => K g.heuristic) (leads_set fun _ _ _ => hg) fun _ => ?_
  split
  · exact leads_pure fun _ _ h => h
  refine Leads.bind ((spares_onAnnealing schedule _).leads K) fun turn => ?_
  refine Leads.bind ((spares_advanceDeluge reference).leads K) fun _ => ?_
  split
  · exact leads_pure fun _ _ h => h
  · exact Leads.bind (Q := fun _ g _ => K g.heuristic) (leads_change fun _ _ h => h) fun _ =>
      leads_pure fun _ _ h => h

omit [MoveGenerator G M V α] in
/-- The water level rewards the picked selector at most once. -/
theorem decideByDeluge_fit (i : Nat) (delta total reference : α) :
    Leads (fun g _ => g.Fit k config ∧ g.heuristic.notes.Picked i g.heuristic.notes.ended)
      (decideByDeluge i delta total reference : Act (Group G α) M α Bool)
      (fun _ g _ => g.Fit k config) (fun g _ => g.Fit k config) := by
  have hadvance : Leads (fun g _ => g.Fit k config) (do
      advanceDeluge reference
      return true : Act (Group G α) M α Bool)
      (fun _ g _ => g.Fit k config) (fun g _ => g.Fit k config) :=
    Leads.bind ((spares_advanceDeluge reference).leads fun h => h.notes.Fit k config) fun _ =>
      leads_pure fun _ _ h => h
  unfold decideByDeluge
  refine leads_part_bind_any fun g => ?_
  split
  · exact leads_pure fun _ _ h => h.1
  split
  · refine leads_solution_bind_any fun s => ?_
    refine Leads.bind (Q := fun _ g _ => g.Fit k config) ?_ fun _ => hadvance
    refine leads_within fun g _ hg => ?_
    refine Attempt.ensures_focus fun u hu => Attempt.ensures_update_of_ok fun h hh => ?_
    rw [hu.1] at hh
    subst hh
    obtain ⟨h', himprove, hnotes⟩ := Heuristic.exists_improve hg.1.sound hg.2 .count delta s.time
    refine ⟨h', himprove, ?_⟩
    show h'.notes.Fit k config
    rw [hnotes]
    exact ⟨hg.1.sound.improve hg.2 .count delta s.time, hg.1.count_eq, hg.1.config_eq⟩
  · exact hadvance.mono_pre fun _ _ h => h.1

omit [MoveGenerator G M V α] in
theorem decide_fit (i : Nat) (delta reference : α) :
    Leads (fun g _ => g.Fit k config ∧ g.heuristic.notes.Picked i g.heuristic.notes.ended)
      (decide i delta reference : Act (Group G α) M α Decision)
      (fun _ g _ => g.Fit k config) (fun g _ => g.Fit k config) := by
  unfold decide
  refine leads_solution_bind_any fun s => ?_
  refine leads_lift_bind (fun _ _ hg => hg.1) fun total _ => leads_part_bind_any fun g => ?_
  cases g.annealing with
  | some schedule =>
    exact (decideByVote_fit (K := fun h => h.notes.Fit k config) schedule delta total
      reference).mono_pre fun _ _ hg => hg.1
  | none =>
    exact (decideByDeluge_fit i delta total reference).bind fun _ => leads_pure fun _ _ h => h

/-- An attempt keeps the notes fit. -/
theorem attempt_fit (reference : α) :
    Leads (fun g _ => g.Fit k config)
      (attempt reference : Act (Group G α) M α (Option (Proposal V α)))
      (fun _ g _ => g.Fit k config) (fun g _ => g.Fit k config) := by
  have hpick {n : Notes α} (hn : n.Fit k config) (ended : Bool) : (n.pick ended).Fit k config :=
    ⟨hn.sound.pick ended, hn.count_eq, hn.config_eq⟩
  unfold attempt
  refine leads_of_at fun g s hg => ?_
  let n := g.heuristic.notes
  have hdraw := leads_draw (G := G) (M := M) (V := V) Group.heuristic
    (fun g heuristic => { g with heuristic }) (fun _ _ => rfl) hg.sound
  refine Leads.bind ((hdraw.mono_error fun g _ herror => ?_).at rfl) fun d => ?_
  · obtain ⟨ended, hnotes⟩ := herror
    show g.heuristic.notes.Fit k config
    rw [hnotes]
    exact hpick hg ended
  refine leads_of_at fun g' s' hdraws => ?_
  obtain ⟨hdrawn, n', hnotes, hdraws⟩ : d ≠ .yield ∧ ∃ n', g'.heuristic.notes = n' ∧ n.Draws d n' :=
    ⟨hdraws.1, _, rfl, hdraws.2⟩
  refine Leads.at (P := fun g _ => g.heuristic.notes = n') ?_ hnotes
  cases hdraws with
  | yield => exact absurd rfl hdrawn
  | empty ended =>
    refine leads_pure fun g _ h => ?_
    show g.heuristic.notes.Fit k config
    rw [h]
    exact ⟨(hg.sound.pick ended).fail, hg.count_eq, hg.config_eq⟩
  | @candidate i ended hpicked c =>
    replace hg : (n.pick ended).Fit k config := hpick hg ended
    have hready : (n.pick ended).Picked i (n.pick ended).ended :=
      ⟨hpicked.lt_count, hpicked.notMem, hpicked.length_lt⟩
    cases c with
    | lazy c =>
      refine Leads.bind (Q := fun _ g _ => g.heuristic.notes = n.pick ended) ?_ fun criterion => ?_
      · unfold criterion
        refine leads_get_bind fun g w h => ?_
        exact Leads.bind (Q := fun _ g _ => g.heuristic.notes = n.pick ended)
          (leads_set fun _ _ _ => h) fun _ => leads_pure fun _ _ h => h
      · refine leads_pure fun g _ h => ?_
        show g.heuristic.notes.Fit k config
        rw [h]
        exact hg
    | eager m =>
      have hdecide : Leads (fun g _ => g.heuristic.notes = n.pick ended)
          (decide i m.delta reference : Act (Group G α) M α Decision)
          (fun _ g _ => g.Fit k config) (fun g _ => g.Fit k config) := by
        refine (decide_fit i m.delta reference).mono_pre fun g _ h => ?_
        unfold Fit
        rw [h]
        exact ⟨hg, hready⟩
      refine hdecide.bind fun decision => ?_
      cases decision with
      | dropped => exact leads_pure fun _ _ h => h
      | refused =>
        refine Leads.bind (Q := fun _ g _ => g.Fit k config) ?_ fun _ => leads_pure fun _ _ h => h
        refine leads_within fun g _ h => leads_change fun u _ hu => ?_
        rw [hu.1]
        exact ⟨h.sound.fail, h.count_eq, h.config_eq⟩
      | accepted =>
        refine Leads.bind (Q := fun _ g _ => g.Fit k config) ?_ fun _ => leads_pure fun _ _ h => h
        exact leads_heuristic Group.heuristic _ (fun _ _ => rfl)
          (P := Notes.Fit k config) (Q := fun _ => Notes.Fit k config) (E := Notes.Fit k config)
          (reportAccept_leads _ _ _ _)

theorem selectByVote_fit :
    Leads (fun g _ => g.Fit k config)
      (selectByVote : Act (Group G α) M α (Option (Proposal V α)))
      (fun _ g _ => g.Fit k config) (fun g _ => g.Fit k config) := by
  unfold selectByVote
  refine leads_solution_bind_any fun s => leads_lift_bind (fun _ _ h => h) fun reference _ => ?_
  refine leads_part_bind_any fun g => ?_
  dsimp only
  refine leads_when ((spares_advanceDeluge reference).leads fun h => h.notes.Fit k config) fun _ => ?_
  exact Attempt.ensures_firstOf (attempt_fit reference) (fun _ => Iff.rfl) _

theorem select_fit :
    Leads (fun g _ => g.Fit k config) (select : Act (Group G α) M α (Option (Proposal V α)))
      (fun _ g _ => g.Fit k config) (fun g _ => g.Fit k config) := by
  unfold select
  refine leads_part_bind_any fun g => ?_
  split
  · exact selectByVote_fit
  refine Leads.bind ((spares_onConstruction _).leads fun h => h.notes.Fit k config) fun p? => ?_
  cases p? with
  | some p => exact leads_pure fun _ _ h => h
  | none =>
    refine Leads.bind (Q := fun _ g _ => g.Fit k config) (leads_change fun _ _ h => h) fun _ => ?_
    exact leads_solution_bind_any fun s => leads_report_bind fun _ => selectByVote_fit

theorem init_fit :
    Leads (fun g _ => g.Fit k config) (init : Act (Group G α) M α Unit)
      (fun _ g _ => g.Fit k config) (fun g _ => g.Fit k config) := by
  unfold init
  refine Leads.bind ((spares_onConstruction _).leads fun h => h.notes.Fit k config) fun _ => ?_
  refine leads_solution_bind_any fun s => ?_
  refine Leads.bind (Q := fun _ g _ => g.Fit k config) ?_ fun _ => ?_
  · refine leads_within fun g _ hg => Attempt.ensures_focus fun u hu => ?_
    rw [hu.1]
    have hfit {ready : Bool} {n' : Notes α} (h : g.heuristic.notes.Prepared ready n') :
        n'.Fit k config :=
      ⟨h.sound, h.count_eq.trans hg.count_eq, h.config_eq.trans hg.config_eq⟩
    exact (Heuristic.init_ensures g.heuristic s.model hg.sound).mono (fun _ h => h)
      (fun _ _ h => hfit h) fun _ h => hfit h
  refine Leads.bind (Q := fun _ g _ => g.Fit k config) (leads_change fun _ _ h => h) fun _ => ?_
  refine leads_part_bind_any fun g => ?_
  cases g.annealing with
  | none => exact leads_pure fun _ _ h => h
  | some schedule =>
    refine leads_lift_bind (fun _ _ h => h) fun size _ => ?_
    exact (spares_onAnnealing schedule _).leads fun h => h.notes.Fit k config

end Group

/-! ## Strategies without a vote -/

omit [Scalar α] in
/-- The candidate of a draw, if it has one. -/
def Drawn.candidate? : Drawn V α → Option (Nat × Candidate V α)
  | .yield => none
  | .empty => none
  | .candidate i c => some (i, c)

namespace Notes

variable {k : Nat} {config : SequenceConfig} {n n' : Notes α}

omit [Scalar α] in
theorem Fit.kept (h : n.Fit k config) (hkept : n.Kept n') : n'.Fit k config :=
  ⟨hkept.sound, hkept.count_eq.trans h.count_eq, hkept.config_eq.trans h.config_eq⟩

theorem Fit.selects {candidate? : Option (Nat × Candidate V α)} {p? : Option (Proposal V α)}
    (h : n.Fit k config) (hselects : n.Selects candidate? p? n') : n'.Fit k config :=
  ⟨hselects.sound, hselects.count_eq.trans h.count_eq, hselects.config_eq.trans h.config_eq⟩

theorem Fit.prepared {ready : Bool} (h : n.Fit k config) (hprepared : n.Prepared ready n') :
    n'.Fit k config :=
  ⟨hprepared.sound, hprepared.count_eq.trans h.count_eq, hprepared.config_eq.trans h.config_eq⟩

theorem Fit.turn {d : Drawn V α} {answer : Option (Option (Proposal V α))} (h : n.Fit k config)
    (hturn : n.Turn d answer n') : n'.Fit k config := by
  cases answer with
  | none => exact h.kept (hturn.kept h.sound)
  | some p? =>
    have hself : n.Kept n := ⟨h.sound, rfl, rfl, rfl⟩
    have hselects : n.Selects d.candidate? p? n' := hturn.selects hself fun i c hd => by
      rw [hd]
      rfl
    exact h.selects hselects

end Notes

/-- Single attempts keep the notes fit. -/
theorem Strategy.TakesTurns.leads_fit {S : Type} {view : S → Heuristic G α}
    {candidate? : S × World M α → Option (Nat × Candidate V α)}
    {attempt : Act S M α (Option (Option (Proposal V α)))}
    (h : Strategy.TakesTurns view candidate? attempt) (k : Nat) (config : SequenceConfig) :
    Leads (fun t _ => (view t).notes.Fit k config) attempt
      (fun _ t _ => (view t).notes.Fit k config) (fun t _ => (view t).notes.Fit k config) := by
  refine Attempt.ensures_of_at fun s hs => ?_
  refine (h s hs.sound).mono (fun _ h => h) (fun answer s' hturn => ?_) fun s' hpick => ?_
  · obtain ⟨d, -, hturn⟩ := hturn
    exact hs.turn hturn
  · obtain ⟨ended, hnotes⟩ := hpick
    rw [hnotes]
    exact ⟨hs.sound.pick ended, hs.count_eq, hs.config_eq⟩

/-! ## All acceptance strategies -/

namespace BasicStrategy

omit [Scalar α] in
/-- The heuristic of a strategy. Construction has none. -/
def heuristic? : BasicStrategy G α → Option (Heuristic G α)
  | hillClimbing s => some s.heuristic
  | greatDeluge s => some s.heuristic
  | simulatedAnnealing s => some s.heuristic
  | group s => some s.heuristic
  | construction _ => none

omit [Scalar α] in
/-- A strategy whose tables somebody else has learned into. -/
def withTables (scores : Scores α) : BasicStrategy G α → BasicStrategy G α
  | hillClimbing s => hillClimbing { s with heuristic.sequence.scores := scores }
  | greatDeluge s => greatDeluge { s with heuristic.sequence.scores := scores }
  | simulatedAnnealing s => simulatedAnnealing { s with heuristic.sequence.scores := scores }
  | group s => group { s with heuristic.sequence.scores := scores }
  | construction s => construction s

/-- The strategies that can be made of a sequence. -/
inductive New (sequence : Sequence G α) : BasicStrategy G α → Prop
  | hillClimbing (maxIdle : Nat) : New sequence (.hillClimbing (.of sequence maxIdle))
  | greatDeluge (schedule : DelugeSchedule α) (alterBoundOnReheat : Bool) :
    New sequence (.greatDeluge (.of sequence schedule alterBoundOnReheat))
  | simulatedAnnealing (schedule : AnnealingSchedule α) :
    New sequence (.simulatedAnnealing (.of sequence schedule))
  | group (construction : Construction α) (deluge : DelugeSchedule α)
    (annealing : Option (AnnealingSchedule α)) :
    New sequence (.group (.of construction sequence deluge annealing))

variable [Model M V α] [MoveGenerator G M V α]

variable (M) in
/-- One attempt of a call, in any world. It may also fail. -/
inductive Attempts : BasicStrategy G α → BasicStrategy G α → Prop
  | hillClimbing (s : HillClimbing G α) (w : World M α) :
    Attempts (.hillClimbing s) (.hillClimbing (HillClimbing.attempt.after (s, w)).1)
  | greatDeluge (s : GreatDeluge G α) (w : World M α) :
    Attempts (.greatDeluge s) (.greatDeluge (GreatDeluge.attempt.after (s, w)).1)
  | simulatedAnnealing (s : SimulatedAnnealing G α) (w : World M α) :
    Attempts (.simulatedAnnealing s)
      (.simulatedAnnealing (SimulatedAnnealing.attempt.after (s, w)).1)
  | group (s : Group G α) (w : World M α) (reference : α) :
    Attempts (.group s) (.group ((Group.attempt reference).after (s, w)).1)

variable (M) in
/-- What may become of a strategy over `k` selectors: it is prepared and asked in any order, and
between two attempts somebody else may learn into its tables. -/
inductive Lives (k : Nat) (t : BasicStrategy G α) : BasicStrategy G α → Prop
  | new : Lives k t t
  | init {t' : BasicStrategy G α} (h : Lives k t t') (w : World M α) :
    Lives k t ((Strategy.init : Act (BasicStrategy G α) M α Unit).after (t', w)).1
  | act {t' t'' : BasicStrategy G α} (h : Lives k t t') (hact : Strategy.Acts M t' t'') :
    Lives k t t''
  | attempt {t' t'' : BasicStrategy G α} (h : Lives k t t') (hattempt : Attempts M t' t'') :
    Lives k t t''
  | shared {t' : BasicStrategy G α} (h : Lives k t t') {scores : Scores α}
    (hscores : scores.Covers k) : Lives k t (t'.withTables scores)

variable {k : Nat} {config : SequenceConfig}

omit [Model M V α] [MoveGenerator G M V α] in
/-- The strategy has a heuristic, and its notes are fit. -/
def Fit (k : Nat) (config : SequenceConfig) (t : BasicStrategy G α) : Prop :=
  ∃ h, t.heuristic? = some h ∧ h.notes.Fit k config

theorem fit_init (w : World M α) {t : BasicStrategy G α} (ht : t.Fit k config) :
    Fit k config ((Strategy.init : Act (BasicStrategy G α) M α Unit).after (t, w)).1 := by
  suffices h : Leads (fun t _ => t.Fit k config) (Strategy.init : Act (BasicStrategy G α) M α Unit)
      (fun _ t _ => t.Fit k config) (fun t _ => t.Fit k config) from h.after ht
  show Leads _ BasicStrategy.init _ _
  unfold BasicStrategy.init
  refine leads_part_bind fun t s ht => ?_
  obtain ⟨h, ht, hfit⟩ := ht
  cases t with
  | hillClimbing t =>
    cases ht
    exact leads_inside ((HillClimbing.init_leads t s hfit.sound).mono (fun _ _ h => h)
      (fun _ _ _ h => ⟨_, rfl, hfit.prepared h⟩) fun _ _ h => ⟨_, rfl, hfit.prepared h⟩)
  | greatDeluge t =>
    cases ht
    exact leads_inside ((GreatDeluge.init_leads t s hfit.sound).mono (fun _ _ h => h)
      (fun _ _ _ h => ⟨_, rfl, hfit.prepared h⟩) fun _ _ h => ⟨_, rfl, hfit.prepared h⟩)
  | simulatedAnnealing t =>
    cases ht
    exact leads_inside ((SimulatedAnnealing.init_leads t s hfit.sound).mono (fun _ _ h => h)
      (fun _ _ _ h => ⟨_, rfl, hfit.prepared h⟩) fun _ _ h => ⟨_, rfl, hfit.prepared h⟩)
  | group t =>
    cases ht
    exact leads_inside ((Group.init_fit.mono (fun _ _ h => h) (fun _ _ _ h => ⟨_, rfl, h⟩)
      fun _ _ h => ⟨_, rfl, h⟩).at hfit)
  | construction t => cases ht

theorem fit_select (w : World M α) {t : BasicStrategy G α} (ht : t.Fit k config) :
    Fit k config ((Strategy.select : Act (BasicStrategy G α) M α (Option (Proposal V α))).after
      (t, w)).1 := by
  suffices h : Leads (fun t _ => t.Fit k config)
      (Strategy.select : Act (BasicStrategy G α) M α (Option (Proposal V α)))
      (fun _ t _ => t.Fit k config) (fun t _ => t.Fit k config) from h.after ht
  show Leads _ BasicStrategy.select _ _
  unfold BasicStrategy.select
  refine leads_part_bind fun t s ht => ?_
  obtain ⟨h, ht, hfit⟩ := ht
  cases t with
  | hillClimbing t =>
    cases ht
    refine leads_inside (Attempt.ensures_of_at fun u hu => ?_)
    rw [← hu.1] at hfit
    exact (HillClimbing.select_selects u hfit.sound).mono (fun _ h => h)
      (fun _ _ h => ⟨_, rfl, hfit.selects h⟩) fun _ h => ⟨_, rfl, hfit.kept h⟩
  | greatDeluge t =>
    cases ht
    refine leads_inside (Attempt.ensures_of_at fun u hu => ?_)
    rw [← hu.1] at hfit
    exact (GreatDeluge.select_selects u hfit.sound).mono (fun _ h => h)
      (fun _ _ h => ⟨_, rfl, hfit.selects h⟩) fun _ h => ⟨_, rfl, hfit.kept h⟩
  | simulatedAnnealing t =>
    cases ht
    refine leads_inside (Attempt.ensures_of_at fun u hu => ?_)
    rw [← hu.1] at hfit
    exact (SimulatedAnnealing.select_selects u hfit.sound).mono (fun _ h => h)
      (fun _ _ h => ⟨_, rfl, hfit.selects h⟩) fun _ h => ⟨_, rfl, hfit.kept h⟩
  | group t =>
    cases ht
    exact leads_inside ((Group.select_fit.mono (fun _ _ h => h) (fun _ _ _ h => ⟨_, rfl, h⟩)
      fun _ _ h => ⟨_, rfl, h⟩).at hfit)
  | construction t => cases ht

theorem fit_attempt {t t' : BasicStrategy G α} (hattempt : Attempts M t t') (ht : t.Fit k config) :
    t'.Fit k config := by
  obtain ⟨h, ht, hfit⟩ := ht
  cases hattempt with
  | hillClimbing s w =>
    cases ht
    exact ⟨_, rfl, (HillClimbing.takesTurns.leads_fit k config).after hfit⟩
  | greatDeluge s w =>
    cases ht
    exact ⟨_, rfl, (GreatDeluge.takesTurns.leads_fit k config).after hfit⟩
  | simulatedAnnealing s w =>
    cases ht
    exact ⟨_, rfl, (SimulatedAnnealing.takesTurns.leads_fit k config).after hfit⟩
  | group s w reference =>
    cases ht
    exact ⟨_, rfl, (Group.attempt_fit reference).after hfit⟩

theorem fit_bestSaved {t : BasicStrategy G α} (ht : t.Fit k config) :
    Fit k config (Strategy.bestSaved M t) := by
  obtain ⟨h, ht, hfit⟩ := ht
  cases t with
  | hillClimbing s | greatDeluge s | simulatedAnnealing s | group s =>
    cases ht
    exact ⟨_, rfl, hfit⟩
  | construction s => cases ht

theorem fit_resetScores {t : BasicStrategy G α} (ht : t.Fit k config) :
    Fit k config (Strategy.resetScores M t) := by
  obtain ⟨h, ht, hfit⟩ := ht
  have hreset : h.resetScores.notes.Fit k config :=
    ⟨hfit.sound.reset, hfit.count_eq, hfit.config_eq⟩
  cases t with
  | hillClimbing s | greatDeluge s | simulatedAnnealing s | group s =>
    cases ht
    exact ⟨_, rfl, hreset⟩
  | construction s => cases ht

omit [Scalar α] [Model M V α] [MoveGenerator G M V α] in
theorem fit_withTables {t : BasicStrategy G α} (ht : t.Fit k config) {scores : Scores α}
    (hscores : scores.Covers k) : (t.withTables scores).Fit k config := by
  obtain ⟨h, ht, hfit⟩ := ht
  have hlearned : Notes.Fit k config { h.notes with scores } :=
    ⟨hfit.sound.learn (hfit.count_eq ▸ hscores), hfit.count_eq, hfit.config_eq⟩
  cases t with
  | hillClimbing s | greatDeluge s | simulatedAnnealing s | group s =>
    cases ht
    exact ⟨_, rfl, hlearned⟩
  | construction s => cases ht

omit [Scalar α] [Model M V α] [MoveGenerator G M V α] in
/-- A new strategy has no chain yet. -/
theorem fit_new {selectors : List (Selector G α)} {scores : Scores α} {sequence : Sequence G α}
    {t : BasicStrategy G α} (hseq : Sequence.withScores selectors config scores = .ok sequence)
    (hscores : scores.Covers selectors.length) (ht : t.New sequence) :
    t.Fit selectors.length config := by
  obtain ⟨hselectors, rfl⟩ := Sequence.of_withScores_eq_ok hseq
  have hpos : 0 < selectors.length := List.length_pos_iff.2 hselectors
  have hfit : (Heuristic.of ⟨selectors, scores, config, false⟩).notes.Fit selectors.length config :=
    ⟨⟨hscores, nofun, hpos, Nat.lt_of_lt_of_le Nat.zero_lt_one (Nat.le_max_right _ _),
      fun _ => List.nodup_nil⟩, rfl, rfl⟩
  cases ht with
  | hillClimbing _ | greatDeluge _ _ | simulatedAnnealing _ | group _ _ _ => exact ⟨_, rfl, hfit⟩

theorem fit_of_lives {t t' : BasicStrategy G α} (hlives : Lives M k t t') (ht : t.Fit k config) :
    t'.Fit k config := by
  induction hlives with
  | new => exact ht
  | init _ w ih => exact fit_init w ih
  | act _ hact ih =>
    cases hact with
    | select w => exact fit_select w ih
    | bestSaved => exact fit_bestSaved ih
    | resetScores => exact fit_resetScores ih
  | attempt _ hattempt ih => exact fit_attempt hattempt ih
  | shared _ hscores ih => exact fit_withTables ih hscores

end BasicStrategy

omit [Scalar α] in
/-- The chain of a heuristic over `k` selectors is in order, and the next pick is, whatever the random
stream: it reads inside the tables, and under a restricted selection it finds a selector that is not
in the chain. -/
structure Heuristic.InOrder [Scalar α] (h : Heuristic G α) (k : Nat) : Prop where
  lt : ∀ i ∈ h.chain.selectors, i < k
  length_le : h.chain.selectors.length ≤ k - 1
  failures_lt : h.chain.failures < h.chain.resetInterval
  nodup : h.sequence.config.selectionType.allowsRepeats = false → h.chain.selectors.Nodup
  left_over : h.sequence.config.selectionType.allowsRepeats = false →
    ((List.range k).filter fun i => !h.chain.selectors.contains i) ≠ []
  exists_choose : ∀ random, ∃ i ended random',
    h.sequence.choose h.chain.selectors random = .ok (i, ended, random') ∧ i < k ∧
      (h.sequence.config.selectionType.allowsRepeats = false → i ∉ h.chain.selectors)

theorem Notes.Fit.inOrder {k : Nat} {config : SequenceConfig} {h : Heuristic G α}
    (hfit : h.notes.Fit k config) : h.InOrder k := by
  obtain ⟨hsound, rfl, -⟩ := hfit
  refine ⟨hsound.lt_count, Nat.le_sub_one_of_lt hsound.length_lt, hsound.failures_lt, hsound.nodup,
    fun _ => Heuristic.unused_ne_nil hsound, fun random => ?_⟩
  obtain ⟨i, ended, random', hchoose, hpicked⟩ := Heuristic.exists_choose hsound random
  exact ⟨i, ended, random', hchoose, hpicked.lt_count, hpicked.notMem⟩

/-- Whatever becomes of an acceptance strategy, its chain is in order before every pick. -/
theorem BasicStrategy.inOrder_of_lives [Model M V α] [MoveGenerator G M V α]
    {selectors : List (Selector G α)} {config : SequenceConfig} {scores : Scores α}
    {sequence : Sequence G α} {t t' : BasicStrategy G α}
    (hseq : Sequence.withScores selectors config scores = .ok sequence)
    (hscores : scores.Covers selectors.length) (hnew : t.New sequence)
    (hlives : Lives M selectors.length t t') :
    ∃ h, t'.heuristic? = some h ∧ h.sequence.selectors.length = selectors.length ∧
      h.sequence.config = config ∧ h.InOrder selectors.length := by
  obtain ⟨h, ht', hfit⟩ := fit_of_lives hlives (fit_new hseq hscores hnew)
  exact ⟨h, ht', hfit.count_eq, hfit.config_eq, hfit.inOrder⟩

/-- Changes, exchanges, and changes with an unknown effect. -/
def BasicStrategy.allKinds : List (Selector (Generator Empty ℚ) ℚ) :=
  [.of "change" (.basic (.change false)) 0, .of "swap" (.basic (.swap false)) 0,
    .of "lazy" (.basic .lazyChange) 0]

/-- Hill climbing by selectors that do not repeat themselves. -/
def BasicStrategy.wanderer : BasicStrategy (Generator Empty ℚ) ℚ :=
  .hillClimbing (.of
    ⟨allKinds, .fresh 3, { selectionType := .restrictedTournament }, false⟩ 10)

/-- Two variables that both have the more expensive of two options. -/
def World.twoVariables : World (Penalty ℚ) ℚ :=
  .ofSolution (.ofModel ⟨[[0, 1], [0, 1]], [some 1, some 1], none, 0⟩) (.standard 2) none

/-- After a change for the better the next pick is one of the other two. -/
theorem BasicStrategy.inOrder_of_lives_wanderer :
    ∃ h, (((Strategy.select : Act _ _ ℚ (Option (Proposal Nat ℚ))).after
      (wanderer, World.twoVariables)).1.heuristic? = some h) ∧ h.chain.selectors = [0] ∧
      h.InOrder 3 := by
  have hlives := Lives.act (k := 3) (.new (t := wanderer)) (.select _ World.twoVariables)
  have hnew : wanderer.New ⟨allKinds, .fresh 3, { selectionType := .restrictedTournament }, false⟩ :=
    .hillClimbing 10
  have hseq : Sequence.withScores allKinds { selectionType := .restrictedTournament } (.fresh 3) =
      .ok ⟨allKinds, .fresh 3, { selectionType := .restrictedTournament }, false⟩ := rfl
  obtain ⟨h, hheuristic, -, -, horder⟩ :=
    inOrder_of_lives hseq (Scores.covers_fresh 3) hnew hlives
  have hchain : (((Strategy.select : Act _ _ ℚ (Option (Proposal Nat ℚ))).after
      (wanderer, World.twoVariables)).1.heuristic?.map (·.chain.selectors)) = some [0] := by
    decide +kernel
  rw [hheuristic] at hchain
  exact ⟨h, hheuristic, Option.some.inj hchain, horder⟩

end LocalSearch
