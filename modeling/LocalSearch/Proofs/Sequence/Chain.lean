import Mathlib.Data.List.Nodup
import Mathlib.Data.List.Perm.Subperm
import LocalSearch.Proofs.Act
import LocalSearch.Proofs.Sequence.Draw
import LocalSearch.Proofs.Sequence.Scores
import LocalSearch.Sequence.Chain
/-!
# Chains of selectors

A chain of a heuristic over `k` selectors has room for one selector more, so a pick finds a selector
that is not in it, and a pick that fills the room ends the chain. Whether a pick ends the chain is
kept until the move is recorded; what the heuristic does in between leaves the chain alone.

* `Notes`: what a heuristic knows, apart from what its selectors are.
* `Notes.Sound`: the invariant. `Notes.Picked`: what a pick adds to it until the move is recorded.
* `Heuristic.exists_choose`: a pick never leaves the tables and never repeats itself if it must not.
* `Heuristic.draw_leads`: a draw, which changes nothing but whether the chain ends.
-/

namespace LocalSearch

open Act

variable {G M V α : Type}

/-- What a heuristic knows. Of its selectors it is the number. -/
structure Notes (α : Type) where
  count : Nat
  config : SequenceConfig
  scores : Scores α
  ended : Bool
  chain : Chain

def Heuristic.notes (h : Heuristic G α) : Notes α :=
  ⟨h.sequence.selectors.length, h.sequence.config, h.sequence.scores, h.sequence.ended, h.chain⟩

namespace Notes

/-- The chain and the tables fit the number of selectors. -/
structure Sound (n : Notes α) : Prop where
  covers : n.scores.Covers n.count
  lt_count : ∀ i ∈ n.chain.selectors, i < n.count
  length_lt : n.chain.selectors.length < n.count
  failures_lt : n.chain.failures < n.chain.resetInterval
  nodup : n.config.selectionType.allowsRepeats = false → n.chain.selectors.Nodup

/-- A selector that may follow the chain, and whether it is going to end it. -/
structure Picked (n : Notes α) (i : Nat) (ended : Bool) : Prop where
  lt_count : i < n.count
  notMem : n.config.selectionType.allowsRepeats = false → i ∉ n.chain.selectors
  length_lt : ended = false → n.chain.selectors.length + 1 < n.count

/-- The notes after a pick. -/
def pick (n : Notes α) (ended : Bool) : Notes α :=
  { n with ended }

/-- The notes with another chain. -/
def follow (n : Notes α) (chain : Chain) : Notes α :=
  { n with chain }

variable {n : Notes α} {i : Nat} {ended : Bool}

theorem Sound.pick (h : n.Sound) (ended : Bool) : (n.pick ended).Sound :=
  ⟨h.covers, h.lt_count, h.length_lt, h.failures_lt, h.nodup⟩

/-- Nothing but the shape of the tables matters. -/
theorem Sound.learn (h : n.Sound) {scores : Scores α} (hscores : scores.Covers n.count) :
    Sound { n with scores } :=
  ⟨hscores, h.lt_count, h.length_lt, h.failures_lt, h.nodup⟩

theorem Sound.clear (h : n.Sound) : (n.follow n.chain.clear).Sound := by
  have hcount := h.length_lt
  have hinterval := h.failures_lt
  refine ⟨h.covers, fun i hi => ?_, ?_, ?_, fun _ => List.nodup_nil⟩
  · cases hi
  · exact Nat.zero_lt_of_lt hcount
  · exact Nat.zero_lt_of_lt hinterval

theorem Sound.succeed (h : n.Sound) : (n.follow n.chain.succeed).Sound :=
  ⟨h.covers, h.lt_count, h.length_lt, Nat.zero_lt_of_lt h.failures_lt, h.nodup⟩

theorem Sound.fail (h : n.Sound) : (n.follow n.chain.fail).Sound := by
  unfold Chain.fail
  by_cases hfailures : n.chain.resetInterval ≤ n.chain.failures + 1
  · rw [if_pos hfailures]
    exact h.clear
  · rw [if_neg hfailures]
    exact ⟨h.covers, h.lt_count, h.length_lt, Nat.lt_of_not_le hfailures, h.nodup⟩

/-- A picked selector may be added to the chain. -/
theorem Sound.extend (h : n.Sound) (hpicked : n.Picked i ended) :
    (n.follow (n.chain.extend i ended)).Sound := by
  have hinterval := Nat.zero_lt_of_lt h.failures_lt
  cases ended with
  | true => exact ⟨h.covers, nofun, Nat.zero_lt_of_lt h.length_lt, hinterval, fun _ => List.nodup_nil⟩
  | false =>
    refine ⟨h.covers, fun j hj => ?_, ?_, hinterval, fun hrepeats => ?_⟩
    · rcases List.mem_append.1 hj with hj | hj
      · exact h.lt_count j hj
      · rw [List.mem_singleton.1 hj]
        exact hpicked.lt_count
    · show (n.chain.selectors ++ [i]).length < n.count
      rw [List.length_append, List.length_singleton]
      exact hpicked.length_lt rfl
    · show (n.chain.selectors ++ [i]).Nodup
      rw [List.nodup_append]
      refine ⟨h.nodup hrepeats, List.nodup_singleton i, fun a ha b hb hab => ?_⟩
      rw [List.mem_singleton] at hb
      rw [hab, hb] at ha
      exact hpicked.notMem hrepeats ha

/-- The notes after a move that a picked selector is rewarded for. -/
def improve [Scalar α] (n : Notes α) (method : LearningMethod) (i : Nat) (delta time : α) :
    Notes α :=
  { n with
    scores := n.scores.rewarded n.chain.previousRow i n.ended (learningIncrement method delta time)
    chain := n.chain.extend i n.ended }

theorem Sound.improve [Scalar α] (h : n.Sound) (hpicked : n.Picked i n.ended)
    (method : LearningMethod) (delta time : α) : (n.improve method i delta time).Sound :=
  (h.extend hpicked).learn (Scores.covers_rewarded h.covers)

/-- The notes with fresh tables. -/
def reset [Scalar α] (n : Notes α) : Notes α :=
  { n with scores := n.scores.reset, ended := false }

theorem Sound.reset [Scalar α] (h : n.Sound) : n.reset.Sound :=
  (h.pick false).learn h.covers.reset

/-- The row of the chain is a row of the table. -/
theorem Sound.rowOf_le (h : n.Sound) : Sequence.rowOf n.chain.selectors ≤ n.count := by
  unfold Sequence.rowOf
  cases hlast : n.chain.selectors.getLast? with
  | none => exact Nat.zero_le _
  | some last => exact h.lt_count last (List.mem_of_getLast? hlast)

/-- The chain is too short to hold all selectors. -/
theorem Sound.exists_unused (h : n.Sound) : ∃ i < n.count, i ∉ n.chain.selectors := by
  by_contra hall
  have hsubset : List.range n.count ⊆ n.chain.selectors := by
    intro i hi
    by_contra hmem
    exact hall ⟨i, List.mem_range.1 hi, hmem⟩
  have hlength := (List.subperm_of_subset List.nodup_range hsubset).length_le
  rw [List.length_range] at hlength
  have hlt := h.length_lt
  omega

end Notes

/-! ## Picks -/

namespace Heuristic

variable {h : Heuristic G α}

/-- Under a restricted selection there is always a selector left that is not in the chain. -/
theorem unused_ne_nil (hsound : h.notes.Sound) :
    (List.range h.sequence.selectors.length).filter (fun i => !h.chain.selectors.contains i) ≠ [] := by
  obtain ⟨i, hi, hunused⟩ := hsound.exists_unused
  refine List.ne_nil_of_mem (List.mem_filter.2 ⟨List.mem_range.2 hi, ?_⟩)
  have hmem : i ∉ h.chain.selectors := hunused
  simp [hmem]

/-- So all selectors take part only if repetitions are allowed. -/
theorem admissible_eq (hsound : h.notes.Sound) :
    h.sequence.admissible h.chain.selectors =
      if h.sequence.config.selectionType.allowsRepeats then List.range h.sequence.selectors.length
      else (List.range h.sequence.selectors.length).filter fun i => !h.chain.selectors.contains i := by
  unfold Sequence.admissible
  dsimp only
  split
  · rfl
  · split
    · rename_i hnil
      exact absurd hnil (unused_ne_nil hsound)
    · rfl

theorem admissible_ne_nil (hsound : h.notes.Sound) :
    h.sequence.admissible h.chain.selectors ≠ [] := by
  rw [admissible_eq hsound]
  split
  · have hcount : 0 < h.sequence.selectors.length := Nat.zero_lt_of_lt hsound.length_lt
    exact List.ne_nil_of_length_pos (by rw [List.length_range]; exact hcount)
  · exact unused_ne_nil hsound

theorem of_mem_admissible (hsound : h.notes.Sound) {i : Nat}
    (hi : i ∈ h.sequence.admissible h.chain.selectors) :
    i < h.sequence.selectors.length ∧
      (h.sequence.config.selectionType.allowsRepeats = false → i ∉ h.chain.selectors) := by
  rw [admissible_eq hsound] at hi
  split at hi
  · rename_i hrepeats
    exact ⟨List.mem_range.1 hi, fun hrestricted => by rw [hrepeats] at hrestricted; cases hrestricted⟩
  · obtain ⟨hrange, hunused⟩ := List.mem_filter.1 hi
    exact ⟨List.mem_range.1 hrange, fun _ => by simpa using hunused⟩

variable [Scalar α]

/-- A pick among admissible selectors is one of them. -/
theorem exists_chooseAmong {s : Sequence G α} {k row : Nat} {candidates : List Nat}
    (hcovers : s.scores.Covers k) (hrow : row ≤ k) (hne : candidates ≠ [])
    (hlt : ∀ i ∈ candidates, i < k) (random : Random.Stream) :
    ∃ i random', s.chooseAmong row candidates random = .ok (i, random') ∧ i ∈ candidates := by
  have hread (i : Nat) (hi : i ∈ candidates) : ∃ score, s.scores.transition row i = .ok score :=
    Scores.exists_transition hcovers hrow (hlt i hi)
  unfold Sequence.chooseAmong
  split
  · exact ⟨_, random, rfl, List.mem_singleton_self _⟩
  · rename_i hone
    split
    · obtain ⟨weights, hweights⟩ := exists_mapM_eq_ok hread
      have hlength : weights.length = candidates.length := length_of_mapM_eq_ok hweights
      have hweightsne : weights ≠ [] := by
        intro hnil
        rw [hnil] at hlength
        exact hne (List.eq_nil_of_length_eq_zero hlength.symm)
      obtain ⟨position, hposition, hbound⟩ := roulette_lt hweightsne random
      rw [hlength] at hbound
      have hfetch := fetch_eq_ok_iff.2 (List.getElem?_eq_getElem hbound)
      refine ⟨candidates[position], (roulette weights random).2, ?_, List.getElem_mem hbound⟩
      rw [hweights, ok_bind]
      dsimp only
      rw [hposition, Option.getD_some, hfetch]
      rfl
    · have htwo : 2 ≤ candidates.length := by
        have hpos : 0 < candidates.length := List.length_pos_iff.2 hne
        have hnotone : candidates.length ≠ 1 := by
          intro hlen
          obtain ⟨only, honly⟩ := List.length_eq_one_iff.1 hlen
          exact hone only honly
        omega
      obtain ⟨hi, hj⟩ := Random.Stream.pair_lt htwo random
      obtain ⟨first, hfirst⟩ := hread _ (List.getElem_mem hi)
      obtain ⟨second, hsecond⟩ := hread _ (List.getElem_mem hj)
      dsimp only
      rw [fetch_eq_ok_iff.2 (List.getElem?_eq_getElem hi), ok_bind,
        fetch_eq_ok_iff.2 (List.getElem?_eq_getElem hj), ok_bind, hsecond, ok_bind, hfirst, ok_bind]
      refine ⟨_, _, rfl, ?_⟩
      split
      · exact List.getElem_mem hi
      · exact List.getElem_mem hj

/-- A chain that goes on has room for another selector. -/
theorem exists_chooseEnd {s : Sequence G α} {i : Nat}
    (hcovers : s.scores.Covers s.selectors.length) (hi : i < s.selectors.length) (chain : List Nat)
    (random : Random.Stream) :
    ∃ ended random', s.chooseEnd chain i random = .ok (ended, random') ∧
      (ended = false → chain.length + 1 < s.selectors.length) := by
  unfold Sequence.chooseEnd
  by_cases hfull : s.selectors.length ≤ chain.length + 1
  · rw [if_pos hfull]
    exact ⟨true, random, rfl, nofun⟩
  · rw [if_neg hfull]
    have hroom : chain.length + 1 < s.selectors.length := Nat.lt_of_not_le hfull
    split
    · exact ⟨true, random, rfl, fun _ => hroom⟩
    · obtain ⟨continuedScore, hcontinued⟩ := Scores.exists_outcome hcovers hi false
      obtain ⟨endedScore, hended⟩ := Scores.exists_outcome hcovers hi true
      rw [hcontinued, ok_bind, hended, ok_bind]
      exact ⟨_, _, rfl, fun _ => hroom⟩

/-- A pick stays inside the tables, whatever the random stream. -/
theorem exists_choose (hsound : h.notes.Sound) (random : Random.Stream) :
    ∃ i ended random', h.sequence.choose h.chain.selectors random = .ok (i, ended, random') ∧
      h.notes.Picked i ended := by
  obtain ⟨i, random₁, hi, hmem⟩ := exists_chooseAmong hsound.covers hsound.rowOf_le
    (admissible_ne_nil hsound) (fun i hi => (of_mem_admissible hsound hi).1) random
  obtain ⟨hlt, hunused⟩ := of_mem_admissible hsound hmem
  obtain ⟨ended, random₂, hended, hroom⟩ :=
    exists_chooseEnd hsound.covers hlt h.chain.selectors random₁
  refine ⟨i, ended, random₂, ?_, hlt, hunused, hroom⟩
  refine bind_eq_ok_iff.2 ⟨(i, random₁), hi, ?_⟩
  exact bind_eq_ok_iff.2 ⟨(ended, random₂), hended, rfl⟩

end Heuristic

/-! ## A draw -/

section

variable [Scalar α]

/-- A pick notes whether it ends the chain. It does not fail. -/
theorem Heuristic.pick_leads {n : Notes α} (hn : n.Sound) {chain : List Nat}
    (hchain : chain = n.chain.selectors) {E : Heuristic G α → Solution M α → Prop} :
    Leads (fun h _ => h.notes = n)
      (onSequence (Sequence.pick chain) : Act (Heuristic G α) M α Nat)
      (fun i h _ => ∃ ended, n.Picked i ended ∧ h.notes = n.pick ended) E := by
  refine leads_within fun h _ hnotes => ?_
  subst hnotes hchain
  unfold Sequence.pick
  refine leads_get_bind fun sequence w hat => ?_
  obtain ⟨rfl, hw⟩ := hat
  obtain ⟨i, ended, random, hchoose, hpicked⟩ := exists_choose hn w.random
  refine leads_lift_bind_of_ok hchoose ?_
  refine Leads.bind (Q := fun _ sequence _ => sequence = { h.sequence with ended })
    (leads_set fun _ _ _ => rfl) fun _ => leads_report_bind fun _ => ?_
  refine leads_pure fun sequence _ hsequence => ?_
  subst hsequence
  exact ⟨ended, hpicked, rfl⟩

variable [MoveGenerator G M V α]

omit [Scalar α] in
/-- What a generator does is nothing to the notes. -/
theorem Heuristic.propose_leads (n : Notes α) (i : Nat) :
    Leads (fun h _ => h.notes = n)
      (onSequence (Sequence.propose i) : Act (Heuristic G α) M α (Option (Candidate V α)))
      (fun _ h _ => h.notes = n) (fun h _ => h.notes = n) := by
  refine leads_within fun h _ hnotes => ?_
  subst hnotes
  unfold Sequence.propose
  refine leads_get_bind fun sequence w hat => ?_
  obtain ⟨rfl, hw⟩ := hat
  refine leads_lift_bind (fun t _ ht => by rw [ht.1]) fun selector hselector => ?_
  refine Attempt.ensures_focus fun s hs => Attempt.ensures_focus fun t ht => ?_
  have hset (selector' : Selector G α) :
      Heuristic.notes { h with sequence := { t.1 with selectors := t.1.selectors.set i selector' } } =
        h.notes := by
    rw [ht, hs.1]
    unfold Heuristic.notes
    rw [List.length_set]
  exact Attempt.ensures_of (fun _ _ u _ _ => hset u.1) fun _ _ u _ _ => hset u.1

/-- A draw notes whether it ends the chain, and proposes nothing or a candidate of the picked
selector. -/
theorem Heuristic.draw_leads {n : Notes α} (hn : n.Sound) :
    Leads (fun h _ => h.notes = n)
      (Heuristic.draw : Act (Heuristic G α) M α (Nat × Option (Candidate V α)))
      (fun answer h _ => ∃ ended, n.Picked answer.1 ended ∧ h.notes = n.pick ended)
      (fun h _ => ∃ ended, h.notes = n.pick ended) := by
  unfold Heuristic.draw
  refine leads_part_bind fun h s hnotes => ?_
  refine Leads.at (P := fun h _ => h.notes = n) ?_ hnotes
  refine Leads.bind (Heuristic.pick_leads hn (congrArg (·.chain.selectors) hnotes)) fun i => ?_
  refine leads_of_at fun h s hpicked => ?_
  obtain ⟨ended, hpicked, hnotes⟩ := hpicked
  refine Leads.at (P := fun h _ => h.notes = n.pick ended) ?_ hnotes
  refine Leads.bind ((Heuristic.propose_leads (n.pick ended) i).mono_error
    fun h _ hnotes => ⟨ended, hnotes⟩) fun c? => ?_
  exact leads_pure fun h _ hnotes => ⟨ended, hpicked, hnotes⟩

end

/-! ## What follows a draw -/

namespace Heuristic

variable [Scalar α]

omit [Scalar α] in
/-- Changing a selector is nothing to the notes. -/
theorem notes_modifySelector (h : Heuristic G α) (i : Nat) (f : Selector G α → Selector G α) :
    Heuristic.notes { h with sequence := h.sequence.modifySelector i f } = h.notes := by
  unfold notes Sequence.modifySelector
  rw [List.length_modify]

/-- A picked selector is rewarded without failing. -/
theorem exists_improve {h : Heuristic G α} {i : Nat} (hsound : h.notes.Sound)
    (hpicked : h.notes.Picked i h.notes.ended) (method : LearningMethod) (delta time : α) :
    ∃ h', h.improve method i delta time = .ok h' ∧
      h'.notes = h.notes.improve method i delta time := by
  have hreward := Scores.reward_eq hsound.covers hsound.rowOf_le hpicked.lt_count h.sequence.ended
    (learningIncrement method delta time)
  have hlearn : h.sequence.learn method h.chain.previousRow i h.sequence.ended delta time =
      .ok { h.sequence with scores := (h.notes.improve method i delta time).scores } :=
    bind_eq_ok_iff.2 ⟨_, hreward, rfl⟩
  exact ⟨_, bind_eq_ok_iff.2 ⟨_, hlearn, rfl⟩, rfl⟩

theorem exists_reward {h : Heuristic G α} {i : Nat} (hsound : h.notes.Sound)
    (hpicked : h.notes.Picked i h.notes.ended) (delta time : α) :
    ∃ h', h.reward i delta time = .ok h' ∧
      h'.notes = h.notes.improve h.notes.config.learningMethod i delta time := by
  obtain ⟨h', himprove, hnotes⟩ :=
    exists_improve hsound hpicked h.sequence.config.learningMethod delta time
  refine ⟨_, bind_eq_ok_iff.2 ⟨h', himprove, rfl⟩, ?_⟩
  exact (notes_modifySelector h' i _).trans hnotes

end Heuristic

/-! ## Preparing for a search -/

section

variable [Scalar α] [MoveGenerator G M V α]

/-- The selectors stay as many as they were, and the tables are set back if all of them could be
prepared. -/
theorem Sequence.init_ensures (model : M) (s : Sequence G α) (chain : Chain) :
    Attempt.Ensures (· = s) (Sequence.init model : Attempt (Sequence G α) Unit)
      (fun _ s' => (Heuristic.mk s' chain).notes = (Heuristic.mk s chain).notes.reset)
      (fun s' => (Heuristic.mk s' chain).notes = (Heuristic.mk s chain).notes) := by
  have hlength := Attempt.fixes_each_length (Selector.init model : Attempt (Selector G α) Unit)
    s.selectors.length
  unfold Sequence.init
  refine Attempt.Ensures.bind
    (Q := fun _ s' => (Heuristic.mk s' chain).notes = (Heuristic.mk s chain).notes) ?_ fun _ => ?_
  · refine Attempt.ensures_focus fun t ht => ?_
    subst ht
    refine (hlength.mono_pre fun items hitems => by rw [hitems]).mono (fun _ h => h) ?_ ?_
    · intro _ items hitems
      unfold Heuristic.notes
      rw [hitems]
    · intro items hitems
      unfold Heuristic.notes
      rw [hitems]
  · exact Attempt.ensures_modify fun s' hs' => congrArg Notes.reset hs'

end

end LocalSearch
