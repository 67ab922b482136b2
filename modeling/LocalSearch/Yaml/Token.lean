/-!
# Tokens of YAML

The units of a YAML text. Indentation is made explicit: a collection that is only indented starts
and ends with tokens of its own, and keys are marked.
-/

namespace LocalSearch.Yaml

/-- A unit of a text. -/
inductive Token
  /-- The version that a document claims. -/
  | version (major minor : Nat)
  /-- A shorthand for tags. -/
  | shorthand (handle expansion : String)
  | documentStart
  | documentEnd
  /-- The start of an indented sequence. -/
  | blockSequence
  /-- The start of an indented mapping. -/
  | blockMapping
  /-- The end of an indented collection. -/
  | blockEnd
  | flowSequenceStart
  | flowSequenceEnd
  | flowMappingStart
  | flowMappingEnd
  /-- A dash. -/
  | blockEntry
  /-- A comma. -/
  | flowEntry
  | key
  | value
  | alias (name : String)
  | anchor (name : String)
  /-- A tag as a handle and what follows it; without a handle it is meant as it is. -/
  | tag (handle suffix : String)
  /-- A scalar. A plain one has no quotes. -/
  | scalar (text : String) (plain : Bool)
deriving Repr, DecidableEq

end LocalSearch.Yaml
