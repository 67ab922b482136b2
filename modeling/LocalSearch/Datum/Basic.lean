import LocalSearch.Power
import LocalSearch.Scalar
/-!
# Structured data

A tree of records, lists and scalars, in which settings and results can be kept.

* `Datum`: the tree.
* `Datum.fields?`: the parts of a record, or of a list that gives them in order.
* `Datum.flag?`, `Datum.count?`, `Datum.number?`, …: reading one value.
-/

namespace LocalSearch

/-- Structured data. -/
inductive Datum (α : Type)
  | null
  | flag (b : Bool)
  | integer (i : Int)
  | number (x : α)
  | text (s : String)
  | list (items : List (Datum α))
  | record (fields : List (String × Datum α))
deriving Inhabited

namespace Datum

variable {α β : Type}

/-- The data for fields with these names, `none` for a missing one. -/
def fields? (names : List String) : Datum α → Option (List (Option (Datum α)))
  | record fields => some (names.map fun name => fields.lookup name)
  | list items =>
    if items.length ≤ names.length then
      some ((List.range names.length).map fun i => items[i]?)
    else none
  | _ => none

/-- Reads a field that may be missing. -/
def readOr (standard : β) (read? : Datum α → Option β) : Option (Datum α) → Option β
  | none => some standard
  | some d => read? d

/-! ## Scalars -/

def flag? : Datum α → Option Bool
  | flag b => some b
  | _ => none

/-- A natural number below a bound. -/
def natural? (bound : Nat) : Datum α → Option Nat
  | integer i => if 0 ≤ i ∧ i.toNat < bound then some i.toNat else none
  | _ => none

/-- A natural number below `2 ^ 64`. -/
def count? : Datum α → Option Nat :=
  natural? UInt64.size

/-- An integer of 64 bits with sign. -/
def integer? : Datum α → Option Int
  | integer i => if isLong i then some i else none
  | _ => none

/-- A number; an integer will do. -/
def number? [Scalar α] : Datum α → Option α
  | number x => some x
  | integer i => some (if i < 0 then -Scalar.ofNat i.natAbs else Scalar.ofNat i.natAbs)
  | _ => none

def text? : Datum α → Option String
  | text s => some s
  | _ => none

/-- A value that may be absent. -/
def optional? (read? : Datum α → Option β) : Datum α → Option (Option β)
  | null => some none
  | d => some <$> read? d

/-- One of several names, or a record with this name as the only field and nothing in it. -/
def choice? (choices : List (String × β)) : Datum α → Option β
  | text s => choices.lookup s
  | record [(name, null)] => choices.lookup name
  | _ => none

/-- A value that may be absent. -/
def ofOptional (write : β → Datum α) : Option β → Datum α
  | none => null
  | some b => write b

def ofNat (n : Nat) : Datum α :=
  integer n

end Datum

end LocalSearch
