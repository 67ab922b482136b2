import LocalSearch.Decimal.Layout
import LocalSearch.Toml.Moment
import LocalSearch.Toml.Quoted
/-!
# Values of TOML

* `Value`: a scalar, an array or a table.
* `Value.text`: the text of a value on one line.
* `Value.leafText`: the same, but a text stands for itself.
-/

namespace LocalSearch.Toml

/-- A value. -/
inductive Value
  | text (s : String)
  | integer (i : Int)
  | number (x : Float)
  | flag (b : Bool)
  | moment (m : Moment)
  | array (items : List Value)
  | table (entries : List (String × Value))

/-- How numbers are written: never with an exponent, and with a point. -/
def numberLayout : Layout := ⟨fun _ => true, true, "nan", "inf"⟩

namespace Value

def isTable : Value → Bool
  | table _ => true
  | _ => false

/-- Where an entry stands in the text of a table: tables come last, and before them arrays that hold
tables. -/
def rank : Value → Nat
  | table _ => 2
  | array items => if items.any isTable then 1 else 0
  | _ => 0

mutual

/-- The text of a value. -/
def render : Value → String
  | text s => quoted s
  | integer i => toString i
  | number x => numberLayout.render x
  | flag b => if b then "true" else "false"
  | moment m => m.text
  | array items => "[" ++ String.intercalate ", " (renderItems items) ++ "]"
  | table entries =>
    match renderEntries entries with
    | [] => "\x7b\x7d"
    | parts =>
      let ranked := [0, 1, 2].flatMap fun rank => parts.filter (·.1 == rank)
      "\x7b " ++ String.intercalate ", " (ranked.map Prod.snd) ++ " \x7d"

/-- The texts of the items of an array. -/
def renderItems : List Value → List String
  | [] => []
  | v :: rest => v.render :: renderItems rest

/-- The texts of the entries of a table, with their ranks. -/
def renderEntries : List (String × Value) → List (Nat × String)
  | [] => []
  | (key, v) :: rest => (v.rank, keyText key ++ " = " ++ v.render) :: renderEntries rest

end

/-- The text of a value, without quotes if it is a text. -/
def leafText : Value → String
  | text s => s
  | v => v.render

end Value

end LocalSearch.Toml
