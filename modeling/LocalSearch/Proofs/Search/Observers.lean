import LocalSearch.Observers
import Mathlib.Data.List.Basic
/-!
# Asking the guards

A proposal is shown to one guard after the other, until one of them refuses it or breaks off. The
guards behind that one do not see it, so it does not become part of what they remember.

* `Observers.asked`: the guards that see a proposal. `Observers.asked_eq_guards_iff` says when these
  are all of them.
* `Observers.ask_eq`: the last one of them answers, their questions are noted, and they remember the
  proposal.
* `Observers.answer_cases`: the three ways in which a question can end.
* `Observers.dialogue`, `Observers.heardAll`: the same for some proposals in a row.
* `Observers.Permissive`: no guard will ever stop a proposal.
-/

namespace LocalSearch

variable {V α : Type}

/-- The question that is noted when a proposal of an iteration is shown to a guard. -/
def Guard.question (iteration : Nat) (p : Proposal V α) (guard : Guard V α) : Option (Notice α) :=
  guard.name.map (Notice.asked · p.delta? iteration)

namespace Observers

variable {o : Observers V α} {guard : Guard V α} {rest : List (Guard V α)} {iteration : Nat}
  {p : Proposal V α}

/-! ## Who is asked -/

/-- Guards from the first one to the one that does not keep a proposal. -/
def askedOf (iteration : Nat) (p : Proposal V α) : List (Guard V α) → List (Guard V α)
  | [] => []
  | guard :: rest =>
    match guard.keeps iteration p with
    | .ok true => guard :: askedOf iteration p rest
    | _ => [guard]

/-- The guards that see a proposal. -/
def asked (o : Observers V α) (iteration : Nat) (p : Proposal V α) : List (Guard V α) :=
  askedOf iteration p o.guards

theorem askedOf_cons_of_keeps (h : guard.keeps iteration p = .ok true) :
    askedOf iteration p (guard :: rest) = guard :: askedOf iteration p rest := by
  simp only [askedOf, h]

theorem askedOf_cons_of_not_keeps (h : guard.keeps iteration p ≠ .ok true) :
    askedOf iteration p (guard :: rest) = [guard] := by
  unfold askedOf
  split
  · exact absurd ‹_› h
  · rfl

/-- The guards are asked in order, the first one first. -/
theorem asked_prefix (o : Observers V α) (iteration : Nat) (p : Proposal V α) :
    o.asked iteration p <+: o.guards := by
  unfold asked
  induction o.guards with
  | nil => exact List.prefix_rfl
  | cons guard rest ih =>
    by_cases hkeeps : guard.keeps iteration p = .ok true
    · rw [askedOf_cons_of_keeps hkeeps]
      exact (List.prefix_cons_inj guard).2 ih
    · rw [askedOf_cons_of_not_keeps hkeeps]
      exact ⟨rest, rfl⟩

/-- Only the last guard that sees a proposal may stop it. -/
theorem keeps_of_mem_dropLast_asked (h : guard ∈ (o.asked iteration p).dropLast) :
    guard.keeps iteration p = .ok true := by
  unfold asked at h
  generalize o.guards = guards at h
  induction guards with
  | nil => cases h
  | cons first rest ih =>
    by_cases hkeeps : first.keeps iteration p = .ok true
    · rw [askedOf_cons_of_keeps hkeeps] at h
      cases hrest : askedOf iteration p rest with
      | nil =>
        rw [hrest] at h
        cases h
      | cons next others =>
        rw [hrest, List.dropLast_cons_cons] at h
        rcases List.mem_cons.1 h with rfl | h
        · exact hkeeps
        · exact ih (hrest ▸ h)
    · rw [askedOf_cons_of_not_keeps hkeeps] at h
      cases h

/-- All guards see a proposal unless one of them stops it and is not the last one. -/
theorem asked_eq_guards_iff :
    o.asked iteration p = o.guards ↔
      ∀ guard ∈ o.guards.dropLast, guard.keeps iteration p = .ok true := by
  unfold asked
  induction o.guards with
  | nil => simp [askedOf]
  | cons guard rest ih =>
    by_cases hkeeps : guard.keeps iteration p = .ok true
    · rw [askedOf_cons_of_keeps hkeeps, List.cons_inj_right, ih]
      cases rest with
      | nil => simp
      | cons next rest => rw [List.dropLast_cons_cons, List.forall_mem_cons, and_iff_right hkeeps]
    · rw [askedOf_cons_of_not_keeps hkeeps]
      cases rest with
      | nil => simp
      | cons next rest => simp [hkeeps]

/-! ## What comes of a question -/

/-- The answer of the last guard that sees a proposal. Without a guard it is kept. -/
def answer (o : Observers V α) (iteration : Nat) (p : Proposal V α) : Except Fault Bool :=
  ((o.asked iteration p).getLast?.map (·.keeps iteration p)).getD (.ok true)

/-- What is noted when a proposal is shown. -/
def questions (o : Observers V α) (iteration : Nat) (p : Proposal V α) : List (Notice α) :=
  (o.asked iteration p).filterMap (Guard.question iteration p)

/-- The observers once a proposal was shown. -/
def heard (o : Observers V α) (iteration : Nat) (p : Proposal V α) : Observers V α :=
  { o with guards := (o.asked iteration p).map (·.hear iteration p) ++
    o.guards.drop (o.asked iteration p).length }

theorem askAll_cons_of_keeps (h : guard.keeps iteration p = .ok true) :
    askAll iteration p (guard :: rest) = ((askAll iteration p rest).1,
      (guard.question iteration p).toList ++ (askAll iteration p rest).2.1,
      guard.hear iteration p :: (askAll iteration p rest).2.2) := by
  conv_lhs => unfold askAll
  rw [h]
  rfl

theorem askAll_cons_of_not_keeps (h : guard.keeps iteration p ≠ .ok true) :
    askAll iteration p (guard :: rest) = (guard.keeps iteration p,
      (guard.question iteration p).toList, guard.hear iteration p :: rest) := by
  unfold askAll
  dsimp only
  split
  · exact absurd ‹_› h
  · rfl

theorem ask_eq (o : Observers V α) (iteration : Nat) (p : Proposal V α) :
    o.ask iteration p =
      (o.answer iteration p, o.questions iteration p, o.heard iteration p) := by
  have hguards (guards : List (Guard V α)) : askAll iteration p guards =
      (((askedOf iteration p guards).getLast?.map (·.keeps iteration p)).getD (.ok true),
        (askedOf iteration p guards).filterMap (Guard.question iteration p),
        (askedOf iteration p guards).map (·.hear iteration p) ++
          guards.drop (askedOf iteration p guards).length) := by
    induction guards with
    | nil => rfl
    | cons guard rest ih =>
      by_cases hkeeps : guard.keeps iteration p = .ok true
      · rw [askAll_cons_of_keeps hkeeps, askedOf_cons_of_keeps hkeeps, ih, List.getLast?_cons]
        refine Prod.ext ?_ (Prod.ext ?_ rfl)
        · cases (askedOf iteration p rest).getLast? with
          | none => exact hkeeps.symm
          | some last => rfl
        · dsimp only
          rw [List.filterMap_cons]
          cases guard.question iteration p <;> rfl
      · rw [askAll_cons_of_not_keeps hkeeps, askedOf_cons_of_not_keeps hkeeps]
        refine Prod.ext rfl (Prod.ext ?_ rfl)
        dsimp only
        rw [List.filterMap_cons]
        cases guard.question iteration p <;> rfl
  unfold ask
  rw [hguards]
  rfl

theorem ask_fst (o : Observers V α) (iteration : Nat) (p : Proposal V α) :
    (o.ask iteration p).1 = o.answer iteration p := by
  rw [ask_eq]

/-- What a guard that stops a proposal says is the answer. -/
theorem answer_of_mem_asked (h : guard ∈ o.asked iteration p)
    (hstops : guard.keeps iteration p ≠ .ok true) :
    o.answer iteration p = guard.keeps iteration p := by
  have hne : o.asked iteration p ≠ [] := List.ne_nil_of_mem h
  rw [← List.dropLast_append_getLast hne, List.mem_append, List.mem_singleton] at h
  rcases h with h | rfl
  · exact absurd (keeps_of_mem_dropLast_asked h) hstops
  · unfold answer
    rw [List.getLast?_eq_some_getLast hne]
    rfl

theorem answer_of_forall_keeps (h : ∀ guard ∈ o.guards, guard.keeps iteration p = .ok true) :
    o.answer iteration p = .ok true := by
  unfold answer
  cases hlast : (o.asked iteration p).getLast? with
  | none => rfl
  | some last =>
    exact h last ((o.asked_prefix iteration p).subset (List.mem_of_getLast? hlast))

/-- Either all guards keep a proposal, or one of those that see it refuses it or breaks off. -/
theorem answer_cases (o : Observers V α) (iteration : Nat) (p : Proposal V α) :
    (∀ guard ∈ o.guards, guard.keeps iteration p = .ok true) ∨
      (∃ guard ∈ o.asked iteration p, guard.keeps iteration p = .ok false) ∨
      ∃ guard ∈ o.asked iteration p, ∃ fault, guard.keeps iteration p = .error fault := by
  unfold asked
  induction o.guards with
  | nil => exact .inl nofun
  | cons guard rest ih =>
    cases hkeeps : guard.keeps iteration p with
    | error fault =>
      rw [askedOf_cons_of_not_keeps (by simp [hkeeps])]
      exact .inr (.inr ⟨guard, List.mem_singleton_self _, fault, hkeeps⟩)
    | ok kept => cases kept with
      | false =>
        rw [askedOf_cons_of_not_keeps (by simp [hkeeps])]
        exact .inr (.inl ⟨guard, List.mem_singleton_self _, hkeeps⟩)
      | true =>
        rw [askedOf_cons_of_keeps hkeeps]
        rcases ih with h | ⟨other, hmem, h⟩ | ⟨other, hmem, h⟩
        · exact .inl (List.forall_mem_cons.2 ⟨hkeeps, h⟩)
        · exact .inr (.inl ⟨other, List.mem_cons_of_mem _ hmem, h⟩)
        · exact .inr (.inr ⟨other, List.mem_cons_of_mem _ hmem, h⟩)

/-! ## Some proposals in a row -/

/-- What is noted when proposals are shown, each with its iteration. -/
def dialogue (o : Observers V α) : List (Nat × Proposal V α) → List (Notice α)
  | [] => []
  | (iteration, p) :: proposals =>
    o.questions iteration p ++ (o.heard iteration p).dialogue proposals

/-- The observers once some proposals were shown. -/
def heardAll (o : Observers V α) (proposals : List (Nat × Proposal V α)) : Observers V α :=
  proposals.foldl (fun o (iteration, p) => o.heard iteration p) o

theorem dialogue_append (o : Observers V α) (proposals more : List (Nat × Proposal V α)) :
    o.dialogue (proposals ++ more) = o.dialogue proposals ++ (o.heardAll proposals).dialogue more := by
  induction proposals generalizing o with
  | nil => rfl
  | cons first proposals ih =>
    show o.questions first.1 first.2 ++ (o.heard first.1 first.2).dialogue (proposals ++ more) = _
    rw [ih, ← List.append_assoc]
    rfl

theorem heardAll_append (o : Observers V α) (proposals more : List (Nat × Proposal V α)) :
    o.heardAll (proposals ++ more) = (o.heardAll proposals).heardAll more :=
  List.foldl_append

/-! ## Guards that stop nothing -/

/-- No guard stops a proposal, whatever it hears from now on. -/
def Permissive (o : Observers V α) : Prop :=
  ∀ guard ∈ o.guards, ∀ heard iteration p, guard.rule (heard ++ guard.asked) iteration p = .ok true

theorem Permissive.answer_eq (h : o.Permissive) (iteration : Nat) (p : Proposal V α) :
    o.answer iteration p = .ok true :=
  answer_of_forall_keeps fun guard hmem => h guard hmem [] iteration p

/-- What the guards hear does not make them stop anything. -/
theorem Permissive.heard (h : o.Permissive) (iteration : Nat) (p : Proposal V α) :
    (o.heard iteration p).Permissive := by
  intro guard hmem
  rcases List.mem_append.1 hmem with hmem | hmem
  · obtain ⟨before, hbefore, rfl⟩ := List.mem_map.1 hmem
    intro heard
    have hrule := h before ((o.asked_prefix iteration p).subset hbefore) (heard ++ [(iteration, p)])
    rw [List.append_assoc] at hrule
    exact hrule
  · exact h guard (List.mem_of_mem_drop hmem)

end Observers

end LocalSearch
