import LocalSearch.Text.Quoted
/-!
# Outlines of values

One-line descriptions of structured values: records with named fields, tuples, lists, maps and
optional values. The parts are texts already.
-/

namespace LocalSearch.Outline

/-- Texts with a comma and a blank between them. -/
def commas (parts : List String) : String :=
  String.intercalate ", " parts

/-- A record: its name and its fields in order. -/
def record (name : String) (fields : List (String × String)) : String :=
  if fields.isEmpty then name
  else name ++ " \x7b " ++ commas (fields.map fun (field, value) => field ++ ": " ++ value) ++ " \x7d"

/-- A constructor with its arguments. -/
def tuple (name : String) (arguments : List String) : String :=
  name ++ "(" ++ commas arguments ++ ")"

/-- A list of values. -/
def list (items : List String) : String :=
  "[" ++ commas items ++ "]"

/-- A map from texts to texts. -/
def dictionary (entries : List (String × String)) : String :=
  "\x7b" ++ commas (entries.map fun (k, v) => Text.quoted k ++ ": " ++ Text.quoted v) ++ "\x7d"

/-- An optional value. -/
def optional {α : Type} (describe : α → String) : Option α → String
  | none => "None"
  | some a => tuple "Some" [describe a]

/-- A truth value. -/
def flag (b : Bool) : String :=
  if b then "true" else "false"

end LocalSearch.Outline
