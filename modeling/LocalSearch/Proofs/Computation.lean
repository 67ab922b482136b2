import Mathlib.Data.List.Forall2
import LocalSearch.Model.Basic
/-!
# Computations that may fail

When a computation written with `Except` gives an answer, by the way it is built: sequencing, list
access and the search through a list.
-/

namespace LocalSearch

variable {ε α β : Type}

theorem bind_eq_ok_iff {x : Except ε α} {f : α → Except ε β} {b : β} :
    x >>= f = .ok b ↔ ∃ a, x = .ok a ∧ f a = .ok b := by
  cases x with
  | ok a =>
    constructor
    · exact fun h => ⟨a, rfl, h⟩
    · rintro ⟨_, ha, h⟩
      cases ha
      exact h
  | error e =>
    constructor
    · intro h
      cases h
    · rintro ⟨_, ha, _⟩
      cases ha

theorem exists_bind_eq_ok {x : Except ε α} {f : α → Except ε β} (hx : ∃ a, x = .ok a)
    (hf : ∀ a, x = .ok a → ∃ b, f a = .ok b) : ∃ b, x >>= f = .ok b := by
  obtain ⟨a, ha⟩ := hx
  obtain ⟨b, hb⟩ := hf a ha
  exact ⟨b, bind_eq_ok_iff.2 ⟨a, ha, hb⟩⟩

@[simp]
theorem pure_eq_ok_iff {a b : α} : (pure a : Except ε α) = .ok b ↔ a = b :=
  ⟨fun h => by cases h; rfl, fun h => by rw [h]; rfl⟩

theorem map_eq_ok_iff {x : Except ε α} {f : α → β} {b : β} :
    f <$> x = .ok b ↔ ∃ a, x = .ok a ∧ f a = b := by
  rw [map_eq_pure_bind, bind_eq_ok_iff]
  simp

@[simp]
theorem ok_bind {a : α} {f : α → Except ε β} : (Except.ok a >>= f) = f a := rfl

@[simp]
theorem ok_map {a : α} {f : α → β} : f <$> (Except.ok a : Except ε α) = .ok (f a) := rfl

theorem map_eq_error_iff {x : Except ε α} {f : α → β} {e : ε} :
    x.map f = .error e ↔ x = .error e := by
  cases x with
  | ok a => simp [Except.map]
  | error e' => simp [Except.map]

/-- Reporting an error in another way keeps the values. -/
theorem mapError_eq_ok_iff {ε' : Type} {x : Except ε α} {f : ε → ε'} {a : α} :
    x.mapError f = .ok a ↔ x = .ok a := by
  cases x with
  | ok b => simp [Except.mapError]
  | error e => simp [Except.mapError]

theorem fetch_eq_ok_iff {items : List α} {i : Nat} {a : α} :
    fetch items i = .ok a ↔ items[i]? = some a := by
  unfold fetch
  cases items[i]? with
  | none => simp
  | some b => simp

theorem fetch_set_ne {items : List α} {i v : Nat} {a : α} (h : i ≠ v) :
    fetch (items.set v a) i = fetch items i := by
  unfold fetch
  rw [List.getElem?_set_ne h.symm, List.length_set]

/-- What an item and its replacement have in common is the same in both lists. -/
theorem map_set_of_fetch {items : List α} {i : Nat} {a b : α} {f : α → β}
    (h : fetch items i = .ok a) (hf : f b = f a) : (items.set i b).map f = items.map f := by
  obtain ⟨hlt, hget⟩ := List.getElem?_eq_some_iff.1 (fetch_eq_ok_iff.1 h)
  rw [List.map_set]
  refine List.ext_getElem (by simp) fun j hj _ => ?_
  by_cases hindex : i = j
  · subst hindex
    simp [hget, hf]
  · simp [hindex]

theorem store_eq_ok_iff {items items' : List α} {i : Nat} {a : α} :
    store items i a = .ok items' ↔ i < items.length ∧ items.set i a = items' := by
  unfold store
  by_cases h : i < items.length
  · simp [h]
  · simp [h]

/-- A list that starts at another of its items has the same items. -/
theorem mem_rotateLeft {items : List α} {n : Nat} {a : α} :
    a ∈ items.rotateLeft n ↔ a ∈ items := by
  simp only [List.rotateLeft]
  split
  · exact Iff.rfl
  · rw [List.mem_append, or_comm, ← List.mem_append, List.take_append_drop]

/-- What a search through a list finds, it finds at an item. -/
theorem exists_of_findSomeM?_eq_ok {f : α → Except ε (Option β)} {items : List α} {b : β}
    (h : items.findSomeM? f = .ok (some b)) : ∃ a ∈ items, f a = .ok (some b) := by
  induction items with
  | nil => cases h
  | cons a rest ih =>
    rw [List.findSomeM?_cons] at h
    obtain ⟨b?, hb, h⟩ := bind_eq_ok_iff.1 h
    cases b? with
    | some b' =>
      have hbb : b' = b := by simpa using h
      exact ⟨a, List.mem_cons_self, by rw [hb, hbb]⟩
    | none =>
      obtain ⟨a', ha', hf⟩ := ih h
      exact ⟨a', List.mem_cons_of_mem a ha', hf⟩

/-- A search through a list that finds nothing has looked at every item. -/
theorem of_findSomeM?_eq_ok_none {f : α → Except ε (Option β)} {items : List α}
    (h : items.findSomeM? f = .ok none) {a : α} (ha : a ∈ items) : f a = .ok none := by
  induction items with
  | nil => cases ha
  | cons a' rest ih =>
    rw [List.findSomeM?_cons] at h
    obtain ⟨b?, hb, h⟩ := bind_eq_ok_iff.1 h
    cases b? with
    | some b => cases h
    | none =>
      rcases List.mem_cons.1 ha with rfl | ha
      · exact hb
      · exact ih h ha

/-- A search through a list whose tests do not fail does not fail. -/
theorem exists_findSomeM?_eq_ok {f : α → Except ε (Option β)} {items : List α}
    (h : ∀ a ∈ items, ∃ b?, f a = .ok b?) : ∃ b?, items.findSomeM? f = .ok b? := by
  induction items with
  | nil => exact ⟨none, rfl⟩
  | cons a rest ih =>
    obtain ⟨b?, hb⟩ := h a List.mem_cons_self
    rw [List.findSomeM?_cons, hb, ok_bind]
    cases b? with
    | some b => exact ⟨some b, rfl⟩
    | none => exact ih fun a' ha' => h a' (List.mem_cons_of_mem a ha')

/-- The results of a computation for every item are the results for the items. -/
theorem mem_of_mapM_eq_ok {f : α → Except ε β} {items : List α} {results : List β}
    (h : items.mapM f = .ok results) {b : β} : b ∈ results ↔ ∃ a ∈ items, f a = .ok b := by
  induction items generalizing results with
  | nil =>
    cases h
    simp
  | cons a rest ih =>
    rw [List.mapM_cons] at h
    obtain ⟨b', hb', h⟩ := bind_eq_ok_iff.1 h
    obtain ⟨results', hresults', h⟩ := bind_eq_ok_iff.1 h
    cases h
    simp [ih hresults', hb', eq_comm]

/-- A computation that gives a result for the list gives one for every item. -/
theorem exists_of_mapM_eq_ok {f : α → Except ε β} {items : List α} {results : List β}
    (h : items.mapM f = .ok results) {a : α} (ha : a ∈ items) : ∃ b, f a = .ok b := by
  induction items generalizing results with
  | nil => cases ha
  | cons a' rest ih =>
    rw [List.mapM_cons] at h
    obtain ⟨b, hb, h⟩ := bind_eq_ok_iff.1 h
    obtain ⟨results', hresults, -⟩ := bind_eq_ok_iff.1 h
    rcases List.mem_cons.1 ha with rfl | ha
    · exact ⟨b, hb⟩
    · exact ih hresults ha

/-- A computation that gives a result for every item gives one for the list. -/
theorem exists_mapM_eq_ok {f : α → Except ε β} {items : List α}
    (h : ∀ a ∈ items, ∃ b, f a = .ok b) : ∃ results, items.mapM f = .ok results := by
  induction items with
  | nil => exact ⟨[], rfl⟩
  | cons a rest ih =>
    obtain ⟨b, hb⟩ := h a List.mem_cons_self
    obtain ⟨results, hresults⟩ := ih fun a' ha' => h a' (List.mem_cons_of_mem a ha')
    refine ⟨b :: results, ?_⟩
    rw [List.mapM_cons, hb, ok_bind, hresults]
    rfl

/-- The results of a computation for every item stand in the order of the items. -/
theorem forall₂_of_mapM_eq_ok {f : α → Except ε β} {items : List α} {results : List β}
    (h : items.mapM f = .ok results) : List.Forall₂ (fun a b => f a = .ok b) items results := by
  induction items generalizing results with
  | nil =>
    cases h
    exact .nil
  | cons a rest ih =>
    rw [List.mapM_cons] at h
    obtain ⟨b, hb, h⟩ := bind_eq_ok_iff.1 h
    obtain ⟨results', hresults', h⟩ := bind_eq_ok_iff.1 h
    cases h
    exact .cons hb (ih hresults')

theorem eq_ok_of_toOption {x : Except ε α} {a : α} (h : x.toOption = some a) : x = .ok a := by
  cases x with
  | ok b =>
    cases h
    rfl
  | error e => cases h

/-- A computation for every item gives as many results as there are items. -/
theorem length_of_mapM_eq_ok {f : α → Except ε β} {items : List α} {results : List β}
    (h : items.mapM f = .ok results) : results.length = items.length := by
  induction items generalizing results with
  | nil =>
    cases h
    rfl
  | cons a rest ih =>
    rw [List.mapM_cons] at h
    obtain ⟨b, -, h⟩ := bind_eq_ok_iff.1 h
    obtain ⟨results', hresults', h⟩ := bind_eq_ok_iff.1 h
    cases h
    rw [List.length_cons, List.length_cons, ih hresults']

/-- A test that no item passes has been made for every item. -/
theorem of_anyM_eq_ok_false {f : α → Except ε Bool} {items : List α}
    (h : items.anyM f = .ok false) {a : α} (ha : a ∈ items) : f a = .ok false := by
  induction items with
  | nil => cases ha
  | cons b rest ih =>
    obtain ⟨passes, hpasses, h⟩ := bind_eq_ok_iff.1 h
    cases passes with
    | true => cases h
    | false =>
      rcases List.mem_cons.1 ha with rfl | ha
      · exact hpasses
      · exact ih h ha

/-- A test that no item passes finds nothing. -/
theorem anyM_eq_ok_false {f : α → Except ε Bool} {items : List α}
    (h : ∀ a ∈ items, f a = .ok false) : items.anyM f = .ok false := by
  induction items with
  | nil => rfl
  | cons a rest ih =>
    refine bind_eq_ok_iff.2 ⟨false, h a List.mem_cons_self, ?_⟩
    exact ih fun b hb => h b (List.mem_cons_of_mem a hb)

/-- A search goes past items that do not pass the test. -/
theorem findM?_append {f : α → Except ε Bool} {skipped rest : List α}
    (h : ∀ a ∈ skipped, f a = .ok false) : (skipped ++ rest).findM? f = rest.findM? f := by
  induction skipped with
  | nil => rfl
  | cons a skipped ih =>
    rw [List.cons_append, List.findM?, h a List.mem_cons_self]
    exact ih fun b hb => h b (List.mem_cons_of_mem a hb)

/-- What a search finds passes the test. -/
theorem of_findM?_eq_ok_some {f : α → Except ε Bool} {items : List α} {a : α}
    (h : items.findM? f = .ok (some a)) : f a = .ok true := by
  induction items with
  | nil => cases h
  | cons b rest ih =>
    obtain ⟨passes, hpasses, h⟩ := bind_eq_ok_iff.1 h
    cases passes with
    | true =>
      cases h
      exact hpasses
    | false => exact ih h

/-- A search with a test that never fails does not fail. -/
theorem exists_findM?_eq_ok {f : α → Except ε Bool} {items : List α}
    (h : ∀ a, ∃ b, f a = .ok b) : ∃ a?, items.findM? f = .ok a? := by
  induction items with
  | nil => exact ⟨none, rfl⟩
  | cons a rest ih =>
    obtain ⟨passes, hpasses⟩ := h a
    cases passes with
    | true => exact ⟨some a, bind_eq_ok_iff.2 ⟨true, hpasses, rfl⟩⟩
    | false =>
      obtain ⟨a?, ha⟩ := ih
      exact ⟨a?, bind_eq_ok_iff.2 ⟨false, hpasses, ha⟩⟩

theorem filterAuxM_eq_ok {f : α → Except ε Bool} {g : α → Bool} {items kept : List α}
    (h : ∀ a ∈ items, f a = .ok (g a)) :
    items.filterAuxM f kept = .ok ((items.filter g).reverse ++ kept) := by
  induction items generalizing kept with
  | nil => rfl
  | cons a rest ih =>
    refine bind_eq_ok_iff.2 ⟨g a, h a List.mem_cons_self, ?_⟩
    rw [ih fun b hb => h b (List.mem_cons_of_mem a hb)]
    cases hg : g a with
    | true => simp [hg]
    | false => simp [hg]

/-- A filter by tests that do not fail. -/
theorem filterM_eq_ok {f : α → Except ε Bool} {g : α → Bool} {items : List α}
    (h : ∀ a ∈ items, f a = .ok (g a)) : items.filterM f = .ok (items.filter g) := by
  refine bind_eq_ok_iff.2 ⟨_, filterAuxM_eq_ok h, ?_⟩
  simp

theorem exists_of_filterAuxM_eq_ok {f : α → Except ε Bool} {items kept out : List α}
    (h : items.filterAuxM f kept = .ok out) {a : α} (ha : a ∈ items) : ∃ b, f a = .ok b := by
  induction items generalizing kept with
  | nil => cases ha
  | cons b rest ih =>
    obtain ⟨passes, hpasses, h⟩ := bind_eq_ok_iff.1 h
    rcases List.mem_cons.1 ha with rfl | ha
    · exact ⟨passes, hpasses⟩
    · exact ih h ha

/-- A filter that does not fail has made the test for every item. -/
theorem of_filterM_eq_ok {f : α → Except ε Bool} {items out : List α}
    (h : items.filterM f = .ok out) :
    ∃ g : α → Bool, (∀ a ∈ items, f a = .ok (g a)) ∧ out = items.filter g := by
  obtain ⟨reversed, hreversed, -⟩ := bind_eq_ok_iff.1 h
  have hg : ∀ a ∈ items, f a = .ok ((f a).toOption.getD false) := by
    intro a ha
    obtain ⟨b, hb⟩ := exists_of_filterAuxM_eq_ok hreversed ha
    rw [hb]
    rfl
  exact ⟨_, hg, Except.ok.inj (h.symm.trans (filterM_eq_ok hg))⟩

/-- What a filter lets through are the items that pass the test. -/
theorem mem_iff_of_filterM_eq_ok {f : α → Except ε Bool} {items out : List α}
    (h : items.filterM f = .ok out) {a : α} : a ∈ out ↔ a ∈ items ∧ f a = .ok true := by
  obtain ⟨g, hg, rfl⟩ := of_filterM_eq_ok h
  rw [List.mem_filter]
  exact and_congr_right fun ha => by rw [hg a ha, Except.ok.injEq]

/-- What every step of a fold keeps of the items that are done holds at its end of all items. -/
theorem of_foldlM_done {P : List α → β → Prop} {f : β → α → Except ε β} {items : List α} {b b' : β}
    (hstep : ∀ done a c c', a ∈ items → P done c → f c a = .ok c' → P (done ++ [a]) c')
    (hinit : P [] b) (h : items.foldlM f b = .ok b') : P items b' := by
  suffices h : ∀ todo done c, (∀ a ∈ todo, a ∈ items) → P done c →
      todo.foldlM f c = .ok b' → P (done ++ todo) b' from
    h items [] b (fun _ ha => ha) hinit ‹_›
  intro todo
  induction todo with
  | nil =>
    intro done c _ hc h
    cases h
    rwa [List.append_nil]
  | cons a rest ih =>
    intro done c hmem hc h
    rw [List.foldlM_cons] at h
    obtain ⟨c', hrun, h⟩ := bind_eq_ok_iff.1 h
    rw [List.append_cons]
    exact ih (done ++ [a]) c' (fun a' ha' => hmem a' (List.mem_cons_of_mem a ha'))
      (hstep done a c c' (hmem a List.mem_cons_self) hc hrun) h

/-- What holds at the start of a fold and survives every step holds at its end. -/
theorem of_foldlM_eq_ok {P : β → Prop} {f : β → α → Except ε β} {items : List α} {b b' : β}
    (hstep : ∀ c a c', a ∈ items → P c → f c a = .ok c' → P c') (hinit : P b)
    (h : items.foldlM f b = .ok b') : P b' :=
  of_foldlM_done (P := fun _ => P) (fun _ a c => hstep c a) hinit h

/-- A fold whose steps succeed succeeds, with what every step keeps of the items that are done. -/
theorem exists_foldlM_done {P : List α → β → Prop} {f : β → α → Except ε β} {items : List α} {b : β}
    (hstep : ∀ done a c, a ∈ items → P done c → ∃ c', f c a = .ok c' ∧ P (done ++ [a]) c')
    (hinit : P [] b) : ∃ b', items.foldlM f b = .ok b' ∧ P items b' := by
  suffices h : ∀ todo done c, (∀ a ∈ todo, a ∈ items) → P done c →
      ∃ b', todo.foldlM f c = .ok b' ∧ P (done ++ todo) b' from
    h items [] b (fun _ ha => ha) hinit
  intro todo
  induction todo with
  | nil => exact fun done c _ hc => ⟨c, rfl, by rwa [List.append_nil]⟩
  | cons a rest ih =>
    intro done c hmem hc
    obtain ⟨c', hrun, hc'⟩ := hstep done a c (hmem a List.mem_cons_self) hc
    rw [List.foldlM_cons, hrun, ok_bind, List.append_cons]
    exact ih (done ++ [a]) c' (fun a' ha' => hmem a' (List.mem_cons_of_mem a ha')) hc'

/-- A fold whose steps succeed succeeds, with what survives every step. -/
theorem exists_foldlM_eq_ok {P : β → Prop} {f : β → α → Except ε β} {items : List α} {b : β}
    (hstep : ∀ c a, a ∈ items → P c → ∃ c', f c a = .ok c' ∧ P c') (hinit : P b) :
    ∃ b', items.foldlM f b = .ok b' ∧ P b' :=
  exists_foldlM_done (P := fun _ => P) (fun _ a c => hstep c a) hinit

end LocalSearch
