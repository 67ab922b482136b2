import Mathlib.Data.List.Sort
import LocalSearch.Dictionary
/-!
# Bindings of dictionaries

A dictionary is known by what it binds its keys to (`Dictionary.ext_get?`), so the order in which
different keys are written does not matter, and of several values written under one key the last
one counts.

* `Dictionary.get?_insert`, `Dictionary.get?_insertAll`, `Dictionary.get?_merge`,
  `Dictionary.get?_filterKeys`: what is found after an operation.
* `Dictionary.insertAll_append`, `Dictionary.merge_ofList`: writing one list after another.
* `Dictionary.get?_ofList_eq_some_iff`, `Dictionary.ofList_eq_of_perm`: lists with different keys.
-/

namespace LocalSearch.Dictionary

/-! ## One key -/

/-- What is found in a list of entries after a key was written into it. -/
theorem find?_insertEntry (key value wanted : String) (entries : List (String × String)) :
    (insertEntry key value entries).find? (·.1 == wanted) =
      if key = wanted then some (key, value) else entries.find? (·.1 == wanted) := by
  induction entries with
  | nil =>
    by_cases h : key = wanted
    · simp [insertEntry, h]
    · simp [insertEntry, h]
  | cons first rest ih =>
    rw [insertEntry]
    split
    · by_cases h : key = wanted
      · simp [h]
      · simp [h]
    · split
      · rename_i hlt
        -- the key comes later in the list, so the first entry is not about it
        by_cases h : key = wanted
        · subst h
          have hne : first.1 ≠ key := fun heq => String.lt_irrefl key (heq ▸ hlt)
          simp [hne, ih]
        · simp only [List.find?_cons, ih, h, if_false]
      · rename_i hle hge
        have heq : key = first.1 := String.le_antisymm hge hle
        by_cases h : key = wanted
        · simp [h]
        · simp [← heq, h]

/-- The value of a key after one was written. -/
theorem get?_insert (d : Dictionary) (key value wanted : String) :
    (d.insert key value).get? wanted = if key = wanted then some value else d.get? wanted := by
  unfold get? insert
  rw [find?_insertEntry]
  split
  · rfl
  · rfl

theorem nodup_keys (d : Dictionary) : (d.entries.map Prod.fst).Nodup := by
  have hascending : d.entries.Pairwise fun a b => a.1 < b.1 := d.ascending
  refine List.pairwise_map.2 (hascending.imp ?_)
  intro a b hlt heq
  rw [heq] at hlt
  exact String.lt_irrefl b.1 hlt

/-- A dictionary binds each of its keys once. -/
theorem get?_eq_some_iff {d : Dictionary} {key value : String} :
    d.get? key = some value ↔ (key, value) ∈ d.entries := by
  constructor
  · intro h
    obtain ⟨entry, hentry, rfl⟩ := Option.map_eq_some_iff.1 h
    have hkey : entry.1 = key := by simpa using List.find?_some hentry
    exact hkey ▸ List.mem_of_find?_eq_some hentry
  · intro h
    cases hfound : d.entries.find? fun entry => entry.1 == key with
    | none =>
      have hnone := List.find?_eq_none.1 hfound _ h
      simp at hnone
    | some entry =>
      have hkey : entry.1 = key := by simpa using List.find?_some hfound
      have hentry : entry = (key, value) :=
        List.inj_on_of_nodup_map d.nodup_keys (List.mem_of_find?_eq_some hfound) h hkey
      rw [get?, hfound, hentry]
      rfl

/-- Two dictionaries with the same bindings are equal. -/
theorem ext_get? {d e : Dictionary} (h : ∀ key, d.get? key = e.get? key) : d = e := by
  have hmem : ∀ entry, entry ∈ d.entries ↔ entry ∈ e.entries := fun (key, value) => by
    rw [← get?_eq_some_iff, ← get?_eq_some_iff, h]
  have hperm : d.entries.Perm e.entries :=
    (List.perm_ext_iff_of_nodup d.nodup_keys.of_map e.nodup_keys.of_map).2 hmem
  exact ext (hperm.eq_of_pairwise
    (fun a b _ _ hab hba => absurd (String.lt_trans hab hba) (String.lt_irrefl a.1))
    d.ascending e.ascending)

@[simp]
theorem get?_empty (key : String) : empty.get? key = none := rfl

/-- Leaving out keys does not touch the others. -/
theorem get?_filterKeys (d : Dictionary) (keep : String → Bool) (key : String) :
    (d.filterKeys keep).get? key = if keep key then d.get? key else none := by
  ext value
  rw [get?_eq_some_iff]
  split
  · rename_i h
    rw [get?_eq_some_iff]
    simp [filterKeys, h]
  · rename_i h
    simp [filterKeys, h]

/-! ## Many keys -/

theorem insertAll_append (d : Dictionary) (entries rest : List (String × String)) :
    d.insertAll (entries ++ rest) = (d.insertAll entries).insertAll rest :=
  List.foldl_append

/-- Of several values of one key, the last one counts. -/
theorem get?_insertAll (d : Dictionary) (entries : List (String × String)) (key : String) :
    (d.insertAll entries).get? key = (entries.reverse.lookup key).or (d.get? key) := by
  induction entries generalizing d with
  | nil => rfl
  | cons entry rest ih =>
    obtain ⟨written, value⟩ := entry
    show ((d.insert written value).insertAll rest).get? key = _
    rw [ih, get?_insert, List.reverse_cons, List.lookup_append, Option.or_assoc]
    congr 1
    by_cases h : written = key
    · simp [h]
    · have hne : (key == written) = false := by simpa using Ne.symm h
      simp [h, List.lookup_cons, hne]

theorem get?_ofList (entries : List (String × String)) (key : String) :
    (ofList entries).get? key = entries.reverse.lookup key := by
  rw [ofList, get?_insertAll, get?_empty, Option.or_none]

/-- Where the keys differ, every value counts. -/
theorem get?_ofList_eq_some_iff {entries : List (String × String)}
    (h : (entries.map Prod.fst).Nodup) {key value : String} :
    (ofList entries).get? key = some value ↔ (key, value) ∈ entries := by
  rw [get?_ofList, List.lookup_eq_some_iff]
  constructor
  · rintro ⟨before, after, heq, -⟩
    exact List.mem_reverse.1 (heq ▸ List.mem_append_right before List.mem_cons_self)
  · intro hmem
    obtain ⟨before, after, heq⟩ := List.append_of_mem (List.mem_reverse.2 hmem)
    refine ⟨before, after, heq, fun entry hentry => ?_⟩
    have hnodup : (entries.reverse.map Prod.fst).Nodup := by
      rw [List.map_reverse]
      exact List.nodup_reverse.2 h
    rw [heq, List.map_append, List.map_cons] at hnodup
    have hne := (List.nodup_append.1 hnodup).2.2 entry.1 (List.mem_map_of_mem hentry) key
      List.mem_cons_self
    simpa using Ne.symm hne

theorem ofList_eq_of_perm {entries entries' : List (String × String)}
    (h : (entries.map Prod.fst).Nodup) (hperm : entries.Perm entries') :
    ofList entries = ofList entries' := by
  have h' : (entries'.map Prod.fst).Nodup := (hperm.map Prod.fst).nodup_iff.1 h
  refine ext_get? fun key => ?_
  ext value
  rw [get?_ofList_eq_some_iff h, get?_ofList_eq_some_iff h', hperm.mem_iff]

theorem ofList_entries (d : Dictionary) : ofList d.entries = d := by
  refine ext_get? fun key => ?_
  ext value
  rw [get?_ofList_eq_some_iff d.nodup_keys, get?_eq_some_iff]

/-- The second dictionary comes first. -/
theorem get?_merge (d e : Dictionary) (key : String) :
    (d.merge e).get? key = (e.get? key).or (d.get? key) := by
  rw [merge, get?_insertAll, ← get?_ofList, ofList_entries]

/-- Writing a list is merging its dictionary. -/
theorem merge_ofList (d : Dictionary) (entries : List (String × String)) :
    d.merge (ofList entries) = d.insertAll entries :=
  ext_get? fun key => by rw [get?_merge, get?_insertAll, get?_ofList]

end LocalSearch.Dictionary
