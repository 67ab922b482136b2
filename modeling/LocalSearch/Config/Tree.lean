import LocalSearch.Config.Properties
import LocalSearch.Datum.Parts
import LocalSearch.Toml.Document
import LocalSearch.Yaml.Node
/-!
# Property sets from trees

A tree of tables becomes a property set: the keys on the way to a leaf are joined by points, and the
items of a list by semicolons.

* `Toml.Value.addTo`, `Properties.ofTable`, `Properties.ofToml`: from TOML.
* `Yaml.Node.addTo`, `Properties.ofNode`, `Properties.ofYaml`: from YAML. Nulls count as missing.
* `Properties.ofFile`: from a text in one of the formats.
* `Properties.ofDatum`, `Properties.ofTexts?`: from a flat record.
-/

namespace LocalSearch

/-- The key of an entry of a table that has a key itself, unless it is the outermost one. -/
def joinKeys : Option String → String → String
  | none, key => key
  | some above, key => above ++ "." ++ key

/-- The texts of the items of a list. -/
def joinItems (items : List String) : String :=
  String.intercalate ";" items

namespace Toml.Value

mutual

/-- Adds the leaves of a value to a property set. -/
def addTo (props : Properties) (key : String) : Value → Properties
  | table entries => addEntriesTo props key entries
  | array items => props.insert key (joinItems (items.map leafText))
  | v => props.insert key v.leafText

/-- Adds the leaves of the entries of a table. -/
def addEntriesTo (props : Properties) (above : String) : List (String × Value) → Properties
  | [] => props
  | (key, v) :: rest => addEntriesTo (addTo props (joinKeys (some above) key) v) above rest

end

end Toml.Value

namespace Yaml.Node

/-- The format of numbers: positional up to sixteen digits before the point and five zeros after
it. -/
def numberLayout : Layout := ⟨fun p => -5 < p && p ≤ 16, true, ".nan", ".inf"⟩

/-- The text of a scalar other than null. -/
def scalarText? : Node → Option String
  | null => none
  | flag b => some (if b then "true" else "false")
  | integer i => some (toString i)
  | number x => some (numberLayout.render x)
  | text s => some s
  | sequence _ => none
  | mapping _ => none
  | tagged _ node => node.scalarText?

/-- The text of a key. -/
def keyText (node : Node) : Except ConfigError String :=
  match node.scalarText? with
  | some s => .ok s
  | none => .error (.invalid "YAML keys must be scalars")

/-- The text of an item of the list at a key. -/
def itemText (key : String) (node : Node) : Except ConfigError String :=
  match node.scalarText? with
  | some s => .ok s
  | none => .error (.invalid (key ++ ": nested sequences are not supported"))

mutual

/-- Adds the leaves of a node to a property set; the outermost node has no key. -/
def addTo (props : Properties) (key : Option String) : Node → Except ConfigError Properties
  | mapping entries => addEntriesTo props key entries
  | sequence items => do
    let key := key.getD ""
    return props.insert key (joinItems (← items.mapM (itemText key)))
  | tagged _ node => addTo props key node
  | node =>
    match key, node.scalarText? with
    | some key, some s => .ok (props.insert key s)
    | _, _ => .ok props

/-- Adds the leaves of the entries of a mapping. -/
def addEntriesTo (props : Properties) (above : Option String) :
    List (Node × Node) → Except ConfigError Properties
  | [] => .ok props
  | (child, node) :: rest => do
    let key ← child.keyText
    addEntriesTo (← addTo props (some (joinKeys above key)) node) above rest

end

end Yaml.Node

namespace Properties

/-- The leaves of a TOML table. -/
def ofTable (entries : List (String × Toml.Value)) : Properties :=
  entries.foldl (fun props (key, v) => v.addTo props (joinKeys none key)) .empty

/-- Reads a TOML text. -/
def ofToml (s : String) : Except ConfigError Properties :=
  match Toml.read? s with
  | some entries => .ok (ofTable entries)
  | none => .error .toml

/-- The leaves of a YAML document, which is a mapping, or null. -/
def ofNode : Yaml.Node → Except ConfigError Properties
  | .null => .ok .empty
  | .mapping entries => (Yaml.Node.mapping entries).addTo .empty none
  | _ => .error (.invalid "YAML properties must be a mapping")

/-- Reads a YAML text. -/
def ofYaml (s : String) : Except ConfigError Properties :=
  match Yaml.read? s with
  | some node => ofNode node
  | none => .error .yaml

/-- Reads a text in the format that goes with a file extension: TOML, YAML, or else lines. -/
def ofFile (extension : Option String) (s : String) : Except ConfigError Properties :=
  match extension with
  | some "toml" => ofToml s
  | some "yaml" => ofYaml s
  | some "yml" => ofYaml s
  | _ => ofText s

/-- The text of a scalar, a number written as in YAML. -/
def scalarText : Datum Float → String
  | .text s => s
  | .integer i => toString i
  | .number x => Yaml.Node.numberLayout.render x
  | .flag b => if b then "true" else "false"
  | _ => ""

/-- The fields of a record of scalars. -/
def ofDatum (d : Datum Float) : Properties :=
  .ofList (d.pairs.map fun (key, value) => (key, scalarText value))

/-- The fields of a record, if all of them are texts. -/
def ofTexts? {α : Type} : Datum α → Option Properties
  | .record fields => do
    let texts ← fields.mapM fun (key, value) => return (key, ← value.text?)
    return .ofList texts
  | _ => none

end Properties

end LocalSearch
