import LocalSearch.Text.Quoted
/-!
# Failures

What can go wrong, as causes; the wording is in the `message` functions.

* `ConfigError`: a property set or a configuration text is no good.
* `SearchError`: an operation reports that it cannot go on.
* `Fault`: an operation was called outside its domain, or broke off without an error value.
* `Failure`: either of the last two. A search ends in the same way on both, but says different
  things.
-/

namespace LocalSearch

/-- Why a configuration is refused. -/
inductive ConfigError
  /-- A file cannot be read. -/
  | file
  /-- A text is not TOML. -/
  | toml
  /-- A text is not YAML. -/
  | yaml
  | missing (key : String)
  /-- A value cannot be read as what is expected of it. -/
  | malformed (key value expected : String)
  | invalid (reason : String)
  | unknownSelector (key : String)
deriving Repr, DecidableEq

namespace ConfigError

/-- The wording of a configuration error. What follows the first words about a file or a foreign
format is up to whoever reads it and is left out. -/
def message : ConfigError → String
  | file => "IO error"
  | toml => "TOML parse error"
  | yaml => "YAML parse error"
  | missing key => "Missing required property: " ++ key
  | malformed key value expected =>
    "Malformed property " ++ key ++ " = " ++ Text.quoted value ++ ": expected " ++ expected
  | invalid reason => "Invalid configuration: " ++ reason
  | unknownSelector key => "Unknown neighbour selector: " ++ key

end ConfigError

/-- An error that an operation reports. -/
inductive SearchError
  /-- A configuration is no good. -/
  | config (reason : String)
  /-- A move generator or a listener failed during the search. -/
  | search (reason : String)
  /-- The operation is not possible now. -/
  | invalidState (reason : String)
  | internal (reason : String)
deriving Repr, DecidableEq

namespace SearchError

/-- The wording of an error. -/
def message : SearchError → String
  | config reason => "Configuration error: " ++ reason
  | search reason => "Search error: " ++ reason
  | invalidState reason => "Invalid state: " ++ reason
  | internal reason => "Internal error: " ++ reason

/-- A configuration error, reported by an operation that reads a configuration. -/
def ofConfig (e : ConfigError) : SearchError :=
  .config e.message

end SearchError

/-- The end of an operation that was called outside its domain or broke off. -/
inductive Fault
  | indexOutOfBounds (length index : Nat)
  /-- A draw from no numbers at all. -/
  | emptyRange
  /-- A number of seconds that is no duration. -/
  | durationRange
  /-- A table and an assignment of different lengths. -/
  | lengthMismatch (left right : Nat)
  /-- A generator or a guard broke off with a message. -/
  | raised (message : String)
  /-- A generator or a guard broke off without a message. -/
  | wordless
  /-- A loop went through more rounds than it can need. -/
  | endless
deriving Repr, DecidableEq

namespace Fault

/-- The message that comes with a fault, if there is one. -/
def message? : Fault → Option String
  | indexOutOfBounds length index =>
    some ("index out of bounds: the len is " ++ toString length ++ " but the index is " ++
      toString index)
  | emptyRange => some "cannot sample empty range"
  | durationRange =>
    some "cannot convert float seconds to Duration: value is either too big or NaN"
  | lengthMismatch left right =>
    some ("assertion `left == right` failed\n  left: " ++ toString left ++ "\n right: " ++
      toString right)
  | raised message => some message
  | wordless => none
  | endless => none

end Fault

/-- How an operation fails. -/
inductive Failure
  | error (e : SearchError)
  | fault (f : Fault)
deriving Repr, DecidableEq

namespace Failure

/-- A failure as the error that the search reports: a fault becomes an internal error. -/
def report : Failure → SearchError
  | error e => e
  | fault f =>
    .internal (match f.message? with
      | some message => "search panicked: " ++ message
      | none => "search panicked")

end Failure

instance : MonadLift (Except Fault) (Except Failure) := ⟨Except.mapError .fault⟩

instance : MonadLift (Except SearchError) (Except Failure) := ⟨Except.mapError .error⟩

instance : MonadLift (Except ConfigError) (Except Failure) :=
  ⟨Except.mapError fun e => .error (.ofConfig e)⟩

/-- An operation on a state that may fail; a failing operation leaves a state, too. -/
abbrev Attempt (σ : Type) := EStateM Failure σ

namespace Attempt

variable {σ τ α : Type}

/-- An operation that only computes. -/
def ofExcept (x : Except Failure α) : Attempt σ α
  | s => match x with
    | .ok a => .ok a s
    | .error e => .error e s

instance : MonadLift (Except Failure) (Attempt σ) := ⟨ofExcept⟩

instance : MonadLift (Except Fault) (Attempt σ) := ⟨fun x => ofExcept (x.mapError .fault)⟩

/-- An operation on a part of the state: `view` reads the part, `put` writes it back. -/
@[inline]
def focus (view : σ → τ) (put : σ → τ → σ) (x : Attempt τ α) : Attempt σ α
  | s => match x (view s) with
    | .ok a t => .ok a (put s t)
    | .error e t => .error e (put s t)

/-- Replaces the state by the answer of an operation that only computes; a failing one leaves the
state as it is. -/
@[inline]
def update (f : σ → Except Fault σ) : Attempt σ Unit
  | s => match f s with
    | .ok s => .ok () s
    | .error e => .error (.fault e) s

/-- An operation on every item of a list in order. The items before a failing one stay changed. -/
def each (x : Attempt τ Unit) : Attempt (List τ) Unit
  | [] => .ok () []
  | t :: rest =>
    match x t with
    | .error e t => .error e (t :: rest)
    | .ok _ t =>
      match each x rest with
      | .error e rest => .error e (t :: rest)
      | .ok _ rest => .ok () (t :: rest)

/-- Runs a step until it gives an answer, at most `n` times. -/
@[specialize]
def firstOf (step : Attempt σ (Option α)) : Nat → Attempt σ (Option α)
  | 0 => pure none
  | n + 1 => do
    match ← step with
    | some a => pure (some a)
    | none => firstOf step n

end Attempt

end LocalSearch
