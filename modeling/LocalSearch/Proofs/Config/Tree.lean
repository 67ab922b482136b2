import LocalSearch.Config.Tree
import LocalSearch.Proofs.Computation
import LocalSearch.Proofs.Dictionary
/-!
# Property sets of trees

A tree of tables is the same property set in TOML and in YAML.

* `Leaf`, `Tree`: tables of texts, truth values, whole numbers and lists of these.
* `Tree.toToml`, `Tree.toYaml`: the tree in the two formats.
* `Tree.leaves`, `Tree.entryLeaves`: the leaves, with the keys that lead to them.
* `Tree.Rearranged`: the same entries in another order, on every level.
* `Tree.toml_alike_yaml`: both formats give the leaves at their dotted paths.
-/

namespace LocalSearch

/-- A scalar that both formats have. -/
inductive Leaf
  | text (s : String)
  | flag (b : Bool)
  | integer (i : Int)

namespace Leaf

/-- The text of a scalar. -/
def toText : Leaf → String
  | text s => s
  | flag b => if b then "true" else "false"
  | integer i => toString i

def toToml : Leaf → Toml.Value
  | text s => .text s
  | flag b => .flag b
  | integer i => .integer i

def toYaml : Leaf → Yaml.Node
  | text s => .text s
  | flag b => .flag b
  | integer i => .integer i

theorem leafText_toToml (leaf : Leaf) : leaf.toToml.leafText = leaf.toText := by
  cases leaf with
  | text s => rfl
  | flag b => simp [toToml, toText, Toml.Value.leafText, Toml.Value.render]
  | integer i => simp [toToml, toText, Toml.Value.leafText, Toml.Value.render]

theorem scalarText?_toYaml (leaf : Leaf) : leaf.toYaml.scalarText? = some leaf.toText := by
  cases leaf with
  | text s => simp [toYaml, toText, Yaml.Node.scalarText?]
  | flag b => simp [toYaml, toText, Yaml.Node.scalarText?]
  | integer i => simp [toYaml, toText, Yaml.Node.scalarText?]

theorem addTo_toToml (props : Properties) (key : String) (leaf : Leaf) :
    leaf.toToml.addTo props key = props.insert key leaf.toText := by
  rw [← leafText_toToml]
  cases leaf with
  | text s => simp [toToml, Toml.Value.addTo]
  | flag b => simp [toToml, Toml.Value.addTo]
  | integer i => simp [toToml, Toml.Value.addTo]

theorem addTo_toYaml (props : Properties) (key : String) (leaf : Leaf) :
    leaf.toYaml.addTo props (some key) = .ok (props.insert key leaf.toText) := by
  cases leaf with
  | text s => simp [toYaml, toText, Yaml.Node.addTo, Yaml.Node.scalarText?]
  | flag b => simp [toYaml, toText, Yaml.Node.addTo, Yaml.Node.scalarText?]
  | integer i => simp [toYaml, toText, Yaml.Node.addTo, Yaml.Node.scalarText?]

/-- The items of a list are all scalars. -/
theorem mapM_itemText_toYaml (key : String) (items : List Leaf) :
    (items.map toYaml).mapM (Yaml.Node.itemText key) = .ok (items.map toText) := by
  induction items with
  | nil => rfl
  | cons leaf rest ih =>
    have hfirst : Yaml.Node.itemText key leaf.toYaml = .ok leaf.toText := by
      rw [Yaml.Node.itemText, scalarText?_toYaml]
    rw [List.map_cons, List.mapM_cons, hfirst, ih]
    rfl

end Leaf

/-- A scalar, a list of scalars or a table. -/
inductive Tree
  | scalar (leaf : Leaf)
  | list (items : List Leaf)
  | table (entries : List (String × Tree))

namespace Tree

/-! ## Two formats -/

mutual

/-- A tree as it is read from TOML. -/
def toToml : Tree → Toml.Value
  | scalar leaf => leaf.toToml
  | list items => .array (items.map Leaf.toToml)
  | table entries => .table (toTomlEntries entries)

/-- The entries of a table as they are read from TOML. -/
def toTomlEntries : List (String × Tree) → List (String × Toml.Value)
  | [] => []
  | (key, tree) :: rest => (key, tree.toToml) :: toTomlEntries rest

end

mutual

/-- A tree as it is read from YAML. -/
def toYaml : Tree → Yaml.Node
  | scalar leaf => leaf.toYaml
  | list items => .sequence (items.map Leaf.toYaml)
  | table entries => .mapping (toYamlEntries entries)

/-- The entries of a table as they are read from YAML. -/
def toYamlEntries : List (String × Tree) → List (Yaml.Node × Yaml.Node)
  | [] => []
  | (key, tree) :: rest => (.text key, tree.toYaml) :: toYamlEntries rest

end

/-! ## Leaves -/

mutual

/-- The leaves of a tree, with the keys that lead to them and their texts. -/
def leaves : Tree → List (List String × String)
  | scalar leaf => [([], leaf.toText)]
  | list items => [([], String.intercalate ";" (items.map Leaf.toText))]
  | table entries => entryLeaves entries

/-- The leaves of the entries of a table. -/
def entryLeaves : List (String × Tree) → List (List String × String)
  | [] => []
  | (key, tree) :: rest =>
    tree.leaves.map (fun (path, value) => (key :: path, value)) ++ entryLeaves rest

end

/-- The leaves below some keys, under their dotted paths. -/
def dotted (above : List String) (leaves : List (List String × String)) : List (String × String) :=
  leaves.map fun (path, value) => (String.intercalate "." (above ++ path), value)

theorem dotted_append (above : List String) (leaves rest : List (List String × String)) :
    dotted above (leaves ++ rest) = dotted above leaves ++ dotted above rest :=
  List.map_append

/-- A key on the way to some leaves can be counted to what is above them. -/
theorem dotted_cons (above : List String) (key : String) (leaves : List (List String × String)) :
    dotted above (leaves.map fun (path, value) => (key :: path, value)) =
      dotted (above ++ [key]) leaves := by
  simp [dotted, Function.comp_def]

/-- Keys that are joined are one key of the path. -/
theorem dotted_joinKeys (above : Option String) (key : String)
    (leaves : List (List String × String)) :
    dotted [joinKeys above key] leaves = dotted (above.toList ++ [key]) leaves := by
  cases above with
  | none => rfl
  | some above => rfl

/-- The leaves of the first entry come before those of the others. -/
theorem insertAll_entryLeaves (props : Properties) (above : Option String) (key : String)
    (tree : Tree) (rest : List (String × Tree)) :
    (props.insertAll (dotted [joinKeys above key] tree.leaves)).insertAll
        (dotted above.toList (entryLeaves rest)) =
      props.insertAll (dotted above.toList (entryLeaves ((key, tree) :: rest))) := by
  rw [← Dictionary.insertAll_append, dotted_joinKeys, entryLeaves, dotted_append, dotted_cons]

mutual

/-- From TOML, a tree adds its leaves below its key. -/
theorem addTo_toToml (props : Properties) (key : String) (tree : Tree) :
    tree.toToml.addTo props key = props.insertAll (dotted [key] tree.leaves) := by
  match tree with
  | scalar leaf => rw [toToml, leaf.addTo_toToml]; rfl
  | list items =>
    have htexts : items.map (Toml.Value.leafText ∘ Leaf.toToml) = items.map Leaf.toText :=
      List.map_congr_left fun leaf _ => leaf.leafText_toToml
    rw [toToml, Toml.Value.addTo, List.map_map, htexts]
    rfl
  | table entries => rw [toToml, Toml.Value.addTo, addEntriesTo_toToml, leaves]

theorem addEntriesTo_toToml (props : Properties) (above : String)
    (entries : List (String × Tree)) :
    Toml.Value.addEntriesTo props above (toTomlEntries entries) =
      props.insertAll (dotted [above] (entryLeaves entries)) := by
  match entries with
  | [] => rfl
  | (key, tree) :: rest =>
    rw [toTomlEntries, Toml.Value.addEntriesTo, addTo_toToml, addEntriesTo_toToml]
    exact insertAll_entryLeaves props (some above) key tree rest

end

mutual

/-- From YAML, a tree adds its leaves below its key. -/
theorem addTo_toYaml (props : Properties) (key : String) (tree : Tree) :
    tree.toYaml.addTo props (some key) = .ok (props.insertAll (dotted [key] tree.leaves)) := by
  match tree with
  | scalar leaf => rw [toYaml, leaf.addTo_toYaml]; rfl
  | list items =>
    rw [toYaml, Yaml.Node.addTo]
    show (do let texts ← (items.map Leaf.toYaml).mapM (Yaml.Node.itemText key)
             return props.insert key (joinItems texts)) = _
    rw [Leaf.mapM_itemText_toYaml]
    rfl
  | table entries => rw [toYaml, Yaml.Node.addTo, addEntriesTo_toYaml, leaves]; rfl

theorem addEntriesTo_toYaml (props : Properties) (above : Option String)
    (entries : List (String × Tree)) :
    Yaml.Node.addEntriesTo props above (toYamlEntries entries) =
      .ok (props.insertAll (dotted above.toList (entryLeaves entries))) := by
  match entries with
  | [] => rfl
  | (key, tree) :: rest =>
    have hkey : (Yaml.Node.text key).keyText = .ok key := by
      simp [Yaml.Node.keyText, Yaml.Node.scalarText?]
    rw [toYamlEntries, Yaml.Node.addEntriesTo, hkey]
    show (do let props ← tree.toYaml.addTo props (some (joinKeys above key))
             Yaml.Node.addEntriesTo props above (toYamlEntries rest)) = _
    rw [addTo_toYaml]
    show Yaml.Node.addEntriesTo _ above (toYamlEntries rest) = _
    rw [addEntriesTo_toYaml, insertAll_entryLeaves]

end

theorem ofTable_toToml (entries : List (String × Tree)) :
    Properties.ofTable (toTomlEntries entries) =
      Dictionary.ofList (dotted [] (entryLeaves entries)) := by
  -- the set grows along the fold, so the induction is about every set to begin with
  suffices h : ∀ props : Properties,
      (toTomlEntries entries).foldl
          (fun props entry => entry.2.addTo props (joinKeys none entry.1)) props =
        props.insertAll (dotted [] (entryLeaves entries)) from h .empty
  induction entries with
  | nil => exact fun props => rfl
  | cons entry rest ih =>
    obtain ⟨key, tree⟩ := entry
    intro props
    rw [toTomlEntries, List.foldl_cons, ih, addTo_toToml]
    exact insertAll_entryLeaves props none key tree rest

theorem ofNode_toYaml (entries : List (String × Tree)) :
    Properties.ofNode (table entries).toYaml =
      .ok (Dictionary.ofList (dotted [] (entryLeaves entries))) := by
  rw [toYaml]
  show (Yaml.Node.mapping (toYamlEntries entries)).addTo .empty none = _
  rw [Yaml.Node.addTo, addEntriesTo_toYaml]
  rfl

/-! ## Orders -/

/-- Entries of tables in another order, also within the tables among them. -/
inductive Rearranged : List (String × Tree) → List (String × Tree) → Prop
  | perm {entries entries' : List (String × Tree)} (h : entries.Perm entries') :
      Rearranged entries entries'
  | inside {inner inner' : List (String × Tree)} (before after : List (String × Tree))
      (key : String) (h : Rearranged inner inner') :
      Rearranged (before ++ (key, table inner) :: after) (before ++ (key, table inner') :: after)
  | trans {first second third : List (String × Tree)} (h : Rearranged first second)
      (h' : Rearranged second third) : Rearranged first third

theorem entryLeaves_append (entries rest : List (String × Tree)) :
    entryLeaves (entries ++ rest) = entryLeaves entries ++ entryLeaves rest := by
  induction entries with
  | nil => rfl
  | cons entry entries ih =>
    obtain ⟨key, tree⟩ := entry
    rw [List.cons_append, entryLeaves, entryLeaves, ih, List.append_assoc]

theorem perm_entryLeaves {entries entries' : List (String × Tree)} (h : entries.Perm entries') :
    (entryLeaves entries).Perm (entryLeaves entries') := by
  induction h with
  | nil => exact .refl _
  | cons entry _ ih => exact ih.append_left _
  | swap first second rest =>
    simp only [entryLeaves, ← List.append_assoc]
    exact List.perm_append_comm.append_right _
  | trans _ _ ih ih' => exact ih.trans ih'

theorem Rearranged.entryLeaves {entries entries' : List (String × Tree)}
    (h : Rearranged entries entries') :
    (Tree.entryLeaves entries).Perm (Tree.entryLeaves entries') := by
  induction h with
  | perm h => exact perm_entryLeaves h
  | inside before after key _ ih =>
    simp only [entryLeaves_append, Tree.entryLeaves, leaves]
    exact ((ih.map _).append_right _).append_left _
  | trans _ _ ih ih' => exact ih.trans ih'

/-- A tree whose leaves have different dotted paths is one property set in both formats and in every
order: each dotted path has the text of its leaf, and there are no other keys. -/
theorem toml_alike_yaml {entries : List (String × Tree)}
    (h : ((entryLeaves entries).map fun leaf => String.intercalate "." leaf.1).Nodup) :
    ∃ props : Properties,
      (∀ entries', Rearranged entries entries' →
        Properties.ofTable (toTomlEntries entries') = props ∧
        Properties.ofNode (table entries').toYaml = .ok props ∧
        (∀ s, Toml.read? s = some (toTomlEntries entries') → Properties.ofToml s = .ok props) ∧
        ∀ s, Yaml.read? s = some (table entries').toYaml → Properties.ofYaml s = .ok props) ∧
      ∀ key value, props.get? key = some value ↔
        ∃ path, (path, value) ∈ entryLeaves entries ∧ String.intercalate "." path = key := by
  have hkeys : ((dotted [] (entryLeaves entries)).map Prod.fst).Nodup := by
    rw [dotted, List.map_map]
    exact h
  refine ⟨Dictionary.ofList (dotted [] (entryLeaves entries)), ?_, fun key value => ?_⟩
  · intro entries' hentries
    have htable := ofTable_toToml entries'
    have hnode := ofNode_toYaml entries'
    have hsame : Dictionary.ofList (dotted [] (entryLeaves entries)) =
        Dictionary.ofList (dotted [] (entryLeaves entries')) :=
      Dictionary.ofList_eq_of_perm hkeys (hentries.entryLeaves.map _)
    rw [← hsame] at htable hnode
    refine ⟨htable, hnode, fun s hs => ?_, fun s hs => ?_⟩
    · rw [Properties.ofToml, hs]
      exact congrArg _ htable
    · rw [Properties.ofYaml, hs]
      exact hnode
  · rw [Dictionary.get?_ofList_eq_some_iff hkeys]
    simp [dotted]

/-- Two orders of a tree with an empty key, a point in a key, an empty table and an empty list. -/
theorem toml_alike_yaml_swapped :
    ∃ props : Properties,
      Properties.ofTable (toTomlEntries
        [("", list [.integer (-3), .flag false, .text "é;"]), ("d", table []), ("e", list []),
          ("a", table [("", scalar (.flag true)), ("b.c", scalar (.text "x"))])]) = props ∧
      Properties.ofNode (table
        [("a", table [("b.c", scalar (.text "x")), ("", scalar (.flag true))]),
          ("", list [.integer (-3), .flag false, .text "é;"]), ("d", table []),
          ("e", list [])]).toYaml = .ok props ∧
      props.get? "a.b.c" = some "x" ∧ props.get? "a." = some "true" ∧
      props.get? "" = some "-3;false;é;" ∧ props.get? "d" = none ∧ props.get? "e" = some "" := by
  have hdistinct : ((entryLeaves
      [("a", table [("b.c", scalar (.text "x")), ("", scalar (.flag true))]),
        ("", list [.integer (-3), .flag false, .text "é;"]), ("d", table []),
        ("e", list [])]).map fun leaf => String.intercalate "." leaf.1).Nodup := by
    decide +kernel
  obtain ⟨props, halike, hkeys⟩ := toml_alike_yaml hdistinct
  refine ⟨props, (halike _ (.trans (.inside [] _ "a" (.perm (.swap _ _ []))) (.perm ?_))).1,
    (halike _ (.perm (.refl _))).2.1, (hkeys _ _).2 ⟨["a", "b.c"], ?_, rfl⟩,
    (hkeys _ _).2 ⟨["a", ""], ?_, rfl⟩, (hkeys _ _).2 ⟨[""], ?_, rfl⟩, ?_,
    (hkeys _ _).2 ⟨["e"], ?_, rfl⟩⟩
  · exact (List.perm_append_singleton _ _).symm
  · decide +kernel
  · decide +kernel
  · decide +kernel
  · refine Option.eq_none_iff_forall_ne_some.2 fun value hvalue => ?_
    obtain ⟨path, hmem, hpath⟩ := (hkeys _ _).1 hvalue
    have hother : ∀ leaf ∈ entryLeaves
        [("a", table [("b.c", scalar (.text "x")), ("", scalar (.flag true))]),
          ("", list [.integer (-3), .flag false, .text "é;"]), ("d", table []), ("e", list [])],
        String.intercalate "." leaf.1 ≠ "d" := by
      decide +kernel
    exact hother _ hmem hpath
  · decide +kernel

end Tree

end LocalSearch
