import LocalSearch.Toml.Value
/-!
# Drafts of TOML tables

A document is a list of statements, which build up one table.

* `Statement`: an entry, or the header of a table.
* `Draft`: a value or a table under construction, which remembers how it came about.
* `Draft.ofStatements?`: the table of a document.
* `Draft.ofEntries?`: an inline table.

A table has one header at most, but may be named in the headers of other tables before and after.
Dotted keys make tables that only other dotted keys may extend. Keys are held in ascending order.
-/

namespace LocalSearch.Toml

/-- A statement of a document. -/
inductive Statement
  /-- An entry of the current table, perhaps with a dotted key. -/
  | entry (path : List String) (value : Value)
  /-- The header of a table, which becomes the current one. -/
  | table (path : List String)
  /-- The header of a new table at the end of an array of tables. -/
  | element (path : List String)

/-- How a table came about. -/
inductive Origin
  /-- It has a header of its own, or is closed. -/
  | declared
  /-- It was named in the header of another table. -/
  | implied
  /-- It was named in a dotted key. -/
  | dotted
deriving Repr, DecidableEq

/-- A value, a table under construction, or an array of tables with the last one first. -/
inductive Draft
  | value (v : Value)
  | table (origin : Origin) (entries : List (String × Draft))
  | tables (elements : List (List (String × Draft)))

namespace Draft

/-- The entries of a table, in ascending order of their keys. -/
abbrev Entries := List (String × Draft)

/-- Changes the value of a key, or gives it one. -/
def alterKey (key : String) (f : Option Draft → Option Draft) : Entries → Option Entries
  | [] => do return [(key, ← f none)]
  | (k, d) :: rest =>
    if key < k then do return (key, ← f none) :: (k, d) :: rest
    else if k < key then do return (k, d) :: (← alterKey key f rest)
    else do return (k, ← f (some d)) :: rest

/-- Changes the table at the end of a path. Tables that do not exist are made on the way, and an
array of tables stands for its last one. A dotted key must not enter a declared table. -/
def descend (dotted : Bool) (f : Origin → Entries → Option (Origin × Entries)) :
    List String → Origin → Entries → Option (Origin × Entries)
  | [], origin, entries => f origin entries
  | key :: path, origin, entries => do
    let next ← alterKey key (fun
      | none => do
        let (o, e) ← descend dotted f path (if dotted then .dotted else .implied) []
        return table o e
      | some (value _) => none
      | some (table o e) => do
        if dotted && o == .declared then none
        let (o, e) ← descend dotted f path o e
        return table o e
      | some (tables []) => none
      | some (tables (last :: before)) => do
        let (_, e) ← descend dotted f path .declared last
        return tables (e :: before)) entries
    return (origin, next)

/-- Adds an entry to a table. A plain key cannot be added to a table of dotted keys, nor a dotted
one to another table that exists already. -/
def addEntry (path : List String) (v : Value) (origin : Origin) (entries : Entries) :
    Option (Origin × Entries) := do
  let key ← path.getLast?
  let above := path.dropLast
  descend true (fun o e => do
    if (o == .dotted) == above.isEmpty then none
    let e ← alterKey key (fun
      | none => some (value v)
      | some _ => none) e
    return (o, e)) above origin entries

/-- Declares a table, which may have been named before, but not declared. -/
def declare (path : List String) (root : Entries) : Option Entries := do
  let key ← path.getLast?
  let (_, root) ← descend false (fun o e => do
    let e ← alterKey key (fun
      | none => some (table .declared [])
      | some (table .implied e) => some (table .declared e)
      | some _ => none) e
    return (o, e)) path.dropLast .declared root
  return root

/-- Adds a table to an array of tables. -/
def extend (path : List String) (root : Entries) : Option Entries := do
  let key ← path.getLast?
  let (_, root) ← descend false (fun o e => do
    let e ← alterKey key (fun
      | none => some (tables [[]])
      | some (tables elements) => some (tables ([] :: elements))
      | some _ => none) e
    return (o, e)) path.dropLast .declared root
  return root

/-- The table of a list of statements, starting with a current table. -/
def addStatements : List Statement → List String → Entries → Option Entries
  | [], _, root => some root
  | .entry path v :: rest, current, root => do
    let (_, root) ← descend false (addEntry path v) current .declared root
    addStatements rest current root
  | .table path :: rest, _, root => do addStatements rest path (← declare path root)
  | .element path :: rest, _, root => do addStatements rest path (← extend path root)

mutual

/-- The finished value. -/
def finish : Draft → Value
  | value v => v
  | table _ entries => .table (finishEntries entries)
  | tables elements => .array (finishElements elements).reverse

/-- The finished entries of a table. -/
def finishEntries : List (String × Draft) → List (String × Value)
  | [] => []
  | (key, d) :: rest => (key, d.finish) :: finishEntries rest

/-- The finished tables of an array, the last one first. -/
def finishElements : List (List (String × Draft)) → List Value
  | [] => []
  | entries :: rest => .table (finishEntries entries) :: finishElements rest

end

/-- The table of a document. -/
def ofStatements? (statements : List Statement) : Option (List (String × Value)) :=
  finishEntries <$> addStatements statements [] []

/-- An inline table. -/
def ofEntries? (entries : List (List String × Value)) : Option Value := do
  let (_, made) ← entries.foldlM (fun (o, e) (path, v) => addEntry path v o e)
    (Origin.declared, [])
  return .table (finishEntries made)

end Draft

end LocalSearch.Toml
