import LocalSearch.Datum.Basic
/-!
# Parts of structured data

Looking into structured data. What is not there, or is of another kind, is read as the plainest
value of the kind asked for, so that a reader need not say at every step what is to happen then.

* `Datum.Key`, `Datum.part`: an item of a list by its position, or a field of a record by its name.
* `Datum.items`, `Datum.pairs`: all items, or all fields.
* `Datum.str`, `Datum.int`, `Datum.nat`, `Datum.num`, `Datum.bool`: a part of a known kind.
-/

namespace LocalSearch.Datum

/-- Where a part is found. -/
inductive Key
  | position (n : Nat)
  | name (s : String)
deriving Repr, DecidableEq

instance {n : Nat} : OfNat Key n := ⟨.position n⟩

instance : Coe String Key := ⟨.name⟩

variable {α : Type}

/-- The items of a list. -/
def items : Datum α → List (Datum α)
  | list xs => xs
  | _ => []

/-- The fields of a record. -/
def pairs : Datum α → List (String × Datum α)
  | record fields => fields
  | _ => []

/-- A part, `null` if there is none. -/
def part (d : Datum α) : Key → Datum α
  | .position n => (d.items[n]?).getD null
  | .name s => (d.pairs.lookup s).getD null

def isNull : Datum α → Bool
  | null => true
  | _ => false

/-- Whether there is a part other than `null`. -/
def has (d : Datum α) (key : Key) : Bool :=
  !(d.part key).isNull

/-- The text of a text. -/
def toText (d : Datum α) : String :=
  d.text?.getD ""

/-- The value of an integer. -/
def toInt : Datum α → Int
  | integer i => i
  | _ => 0

/-- The value of a number, which may also be given by its text. -/
def toNumber [Scalar α] : Datum α → α
  | text s => (Scalar.parse? s).getD 0
  | d => d.number?.getD 0

def str (d : Datum α) (key : Key) : String :=
  (d.part key).toText

def int (d : Datum α) (key : Key) : Int :=
  (d.part key).toInt

def nat (d : Datum α) (key : Key) : Nat :=
  (d.int key).toNat

def num [Scalar α] (d : Datum α) (key : Key) : α :=
  (d.part key).toNumber

def bool (d : Datum α) (key : Key) : Bool :=
  (d.part key).flag?.getD false

/-- The items of a part. -/
def itemsAt (d : Datum α) (key : Key) : List (Datum α) :=
  (d.part key).items

/-- The texts in a part. -/
def texts (d : Datum α) (key : Key) : List String :=
  (d.itemsAt key).map toText

/-- A record with some of its fields replaced, or added in front. -/
def withFields (d : Datum α) (fields : List (String × Datum α)) : Datum α :=
  record (fields ++ d.pairs.filter fun (name, _) => (fields.lookup name).isNone)

end LocalSearch.Datum
