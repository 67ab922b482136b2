import LocalSearch.Proofs.Computation
/-!
# Tables of values

An assignment as a list: one value or none for every variable.

* `Table.openCount`: the number of variables without a value.
* `Table.evict`: takes some variables their values.
* `Table.ClashFree`: no two values clash. `Table.clashFree_place` is the step that keeps it: a new
  value after the values that clash with it are gone.
-/

namespace LocalSearch

/-- One value or none for every variable. -/
abbrev Table (V : Type) := List (Option V)

namespace Table

variable {V : Type} {a b : Table V} {out : List Nat} {v : Nat} {x y : V}

/-- The number of variables without a value. -/
def openCount (a : Table V) : Nat :=
  (a.filter Option.isNone).length

/-- Takes variables their values. -/
def evict (a : Table V) (out : List Nat) : Table V :=
  out.foldl (fun a i => a.set i none) a

@[simp]
theorem length_evict (a : Table V) (out : List Nat) : (a.evict out).length = a.length := by
  unfold evict
  induction out generalizing a with
  | nil => rfl
  | cons i rest ih => rw [List.foldl_cons, ih, List.length_set]

theorem getElem?_evict (a : Table V) (out : List Nat) (i : Nat) :
    (a.evict out)[i]? = if i ∈ out then a[i]?.map (fun _ => none) else a[i]? := by
  unfold evict
  induction out generalizing a with
  | nil => simp
  | cons j rest ih =>
    rw [List.foldl_cons, ih]
    -- the last one that is taken out may be one that was out already
    by_cases hij : j = i
    · subst hij
      by_cases hlt : j < a.length
      · simp [hlt]
      · simp [hlt]
    · have hji : i ≠ j := fun h => hij h.symm
      simp [List.getElem?_set_ne hij, hji]

@[simp]
theorem evict_nil (a : Table V) : a.evict [] = a := rfl

/-! ## Counting -/

theorem openCount_eq_countP (a : Table V) : a.openCount = a.countP Option.isNone :=
  List.countP_eq_length_filter.symm

/-- Another value for a variable that has one leaves as many variables without a value. -/
theorem openCount_set_some (h : a[v]? = some (some x)) :
    openCount (a.set v (some y)) = a.openCount := by
  obtain ⟨hlt, hget⟩ := List.getElem?_eq_some_iff.1 h
  rw [openCount_eq_countP, openCount_eq_countP, List.countP_set hlt, hget]
  simp

theorem openCount_ne_zero (h : a[v]? = some none) : a.openCount ≠ 0 := by
  rw [openCount_eq_countP]
  have hpos : 0 < a.countP Option.isNone :=
    List.countP_pos_iff.2 ⟨none, List.mem_of_getElem? h, rfl⟩
  omega

/-- A value for a variable without one leaves one variable less without a value. -/
theorem openCount_set_none (h : a[v]? = some none) :
    openCount (a.set v (some y)) + 1 = a.openCount := by
  have hpos := openCount_ne_zero h
  obtain ⟨hlt, hget⟩ := List.getElem?_eq_some_iff.1 h
  rw [openCount_eq_countP] at hpos ⊢
  rw [openCount_eq_countP, List.countP_set hlt, hget]
  simp only [Option.isNone_none, Option.isNone_some, if_true, Bool.false_eq_true, if_false]
  omega

theorem exists_open (h : a.openCount ≠ 0) : ∃ v : Nat, a[v]? = some none := by
  rw [openCount_eq_countP] at h
  obtain ⟨x, hx, hnone⟩ := List.countP_pos_iff.1 (Nat.pos_of_ne_zero h)
  cases x with
  | none => exact List.getElem?_of_mem hx
  | some _ => cases hnone

/-- If no variable is without a value, each has one. -/
theorem exists_of_openCount_eq_zero (h : a.openCount = 0) (hv : v < a.length) :
    ∃ x, a[v]? = some (some x) := by
  have hget := List.getElem?_eq_getElem hv
  cases hx : a[v] with
  | none => exact absurd h (openCount_ne_zero (hget.trans (congrArg some hx)))
  | some x => exact ⟨x, hget.trans (congrArg some hx)⟩

/-! ## Clashes -/

/-- No two values clash. -/
def ClashFree (clash : Nat → V → Nat → V → Prop) (a : Table V) : Prop :=
  ∀ (i j : Nat) (x y : V), i ≠ j → a[i]? = some (some x) → a[j]? = some (some y) →
    ¬ clash i x j y

variable {clash : Nat → V → Nat → V → Prop}

/-- Every value of the first table stands in the second one. -/
def Within (b a : Table V) : Prop :=
  ∀ (i : Nat) (y : V), b[i]? = some (some y) → a[i]? = some (some y)

theorem ClashFree.within (h : ClashFree clash a) (hb : b.Within a) : ClashFree clash b :=
  fun i j x y hij hx hy => h i j x y hij (hb i x hx) (hb j y hy)

theorem of_getElem?_set_none {i : Nat} (h : (List.set a v none)[i]? = some (some y)) :
    i ≠ v ∧ a[i]? = some (some y) := by
  rw [List.getElem?_set] at h
  split at h
  · split at h
    · cases h
    · cases h
  · rename_i hne
    exact ⟨fun hi => hne hi.symm, h⟩

theorem eq_of_getElem?_set_self (h : (List.set a v (some x))[v]? = some (some y)) : y = x := by
  by_cases hlt : v < a.length
  · simpa [hlt, eq_comm] using h
  · simp [hlt] at h

theorem within_refl (a : Table V) : Within a a :=
  fun _ _ h => h

theorem within_nil (a : Table V) : Within [] a :=
  fun _ _ h => by cases h

theorem within_set_none (a : Table V) (v : Nat) : Within (a.set v none) a :=
  fun _ _ h => (of_getElem?_set_none h).2

theorem within_set_some (x : V) (h : a[v]? = some none) :
    Within a (a.set v (some x)) := by
  intro i y hy
  have hi : v ≠ i := by
    rintro rfl
    cases h.symm.trans hy
  exact (List.getElem?_set_ne hi).trans hy

theorem within_evict (a : Table V) (out : List Nat) : Within (a.evict out) a := by
  intro i y hy
  rw [getElem?_evict] at hy
  split at hy
  · rw [Option.map_eq_some_iff] at hy
    obtain ⟨_, _, h⟩ := hy
    cases h
  · exact hy

/-- A new value does not clash if the values that clash with it are gone. -/
theorem clashFree_place (hcomm : ∀ i x j y, clash i x j y → clash j y i x)
    (h : ClashFree clash a)
    (hout : ∀ i y, i ≠ v → a[i]? = some (some y) → clash v x i y → i ∈ out) :
    ClashFree clash ((a.evict out).set v (some x)) := by
  have hold (i : Nat) (y : V) (hi : i ≠ v)
      (hy : ((a.evict out).set v (some x))[i]? = some (some y)) :
      a[i]? = some (some y) ∧ i ∉ out := by
    rw [List.getElem?_set_ne (fun h => hi h.symm), getElem?_evict] at hy
    split at hy
    · rw [Option.map_eq_some_iff] at hy
      obtain ⟨_, _, h⟩ := hy
      cases h
    · rename_i hmem
      exact ⟨hy, hmem⟩
  -- at least one of the two is an old value, and the old values that clash with the new one are out
  intro i j y z hij hy hz hclash
  by_cases hi : i = v
  · subst hi
    have hj : j ≠ i := fun h => hij h.symm
    obtain ⟨hz', hmem⟩ := hold j z hj hz
    rw [eq_of_getElem?_set_self hy] at hclash
    exact hmem (hout j z hj hz' hclash)
  · obtain ⟨hy', hmem⟩ := hold i y hi hy
    by_cases hj : j = v
    · subst hj
      rw [eq_of_getElem?_set_self hz] at hclash
      -- the same seen from the other side
      exact hmem (hout i y hi hy' (hcomm _ _ _ _ hclash))
    · exact h i j y z hij hy' (hold j z hj hz).1 hclash

end Table

end LocalSearch
