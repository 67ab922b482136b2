/-!
# Journals

The events a search reports while it runs.

* `Level`: how important an event is.
* `Event`: a level and named fields in the order in which they were given.
* `Journal`: the events reported so far, less those beyond the journal's threshold.
-/

namespace LocalSearch

/-- How important an event is, the most important first. -/
inductive Level
  | error | warn | info | debug | trace
deriving Repr, DecidableEq, Inhabited

namespace Level

/-- The position of a level, counted from the most important. -/
def rank : Level → Nat
  | error => 0
  | warn => 1
  | info => 2
  | debug => 3
  | trace => 4

/-- The name of a level. -/
def name : Level → String
  | error => "ERROR"
  | warn => "WARN"
  | info => "INFO"
  | debug => "DEBUG"
  | trace => "TRACE"

/-- The level with a name. -/
def ofName? (s : String) : Option Level :=
  [error, warn, info, debug, trace].find? fun level => level.name == s

end Level

/-- The value of an event's field. -/
inductive FieldValue (α : Type)
  | text (s : String)
  | number (x : α)
  | count (n : Nat)
  | integer (i : Int)
  | flag (b : Bool)
  /-- A value given by its plain text. -/
  | shown (s : String)
  /-- A value given by its outline. -/
  | outlined (s : String)
deriving Repr, Inhabited

/-- An event with its fields. -/
structure Event (α : Type) where
  level : Level
  fields : List (String × FieldValue α)
deriving Repr, Inhabited

/-- The events reported so far. -/
structure Journal (α : Type) where
  /-- The least important level that is kept; `none` keeps nothing. -/
  threshold : Option Level
  events : Array (Event α)
deriving Inhabited

namespace Journal

variable {α : Type}

/-- A journal without events. -/
def fresh (threshold : Option Level) : Journal α := ⟨threshold, #[]⟩

/-- Whether events of a level are kept. -/
def keeps (j : Journal α) (level : Level) : Bool :=
  match j.threshold with
  | none => false
  | some least => level.rank ≤ least.rank

/-- Adds an event if its level is kept. Its fields are only computed then. -/
@[inline]
def record (j : Journal α) (level : Level) (name : String)
    (fields : Unit → List (String × FieldValue α)) : Journal α :=
  if j.keeps level then
    { j with events := j.events.push ⟨level, ("event", .text name) :: fields ()⟩ }
  else j

end Journal

end LocalSearch
