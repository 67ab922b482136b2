import LocalSearch.Sequence.Basic
/-!
# Extensions

An extension observes a search from inside: it is prepared before the first iteration, is told of
every commit, and of the end. Some extensions keep records for every value or for every variable;
only one extension may claim either.

* `Extension`: an extension with its claims.
* `Extensions.register`: adds an extension unless what it claims is taken.
-/

namespace LocalSearch

/-- An extension of a search. -/
structure Extension where
  name : String
  /-- It does not want to be told of anything. -/
  silent : Bool
  /-- It claims the records for values. -/
  claimsValues : Bool
  /-- It claims the records for variables. -/
  claimsVariables : Bool
  /-- Why it cannot be prepared. -/
  refusal : Option SearchError
deriving Repr, DecidableEq

/-- How a registration ended. -/
inductive Registration
  | registered
  /-- The records for values were claimed before. -/
  | valuesClaimed
  /-- The records for variables were claimed before. -/
  | variablesClaimed
deriving Repr, DecidableEq

namespace Registration

/-- Whether the extension was added. -/
def isRegistered (r : Registration) : Bool :=
  r == registered

def outline : Registration → String
  | registered => "Registered"
  | valuesClaimed => "ValueExtraClaimed"
  | variablesClaimed => "VariableExtraClaimed"

end Registration

/-- The extensions of a search in the order of their registration. -/
structure Extensions where
  members : List Extension
  valuesClaimed : Bool
  variablesClaimed : Bool
deriving Repr, DecidableEq

namespace Extensions

variable {M α : Type}

/-- No extensions. -/
def none : Extensions := ⟨[], false, false⟩

/-- How the registration of an extension would end. -/
def check (e : Extensions) (x : Extension) : Registration :=
  if x.claimsValues && e.valuesClaimed then .valuesClaimed
  else if x.claimsVariables && e.variablesClaimed then .variablesClaimed
  else .registered

/-- Adds an extension with its claims. -/
def add (e : Extensions) (x : Extension) : Extensions where
  members := e.members ++ [x]
  valuesClaimed := e.valuesClaimed || x.claimsValues
  variablesClaimed := e.variablesClaimed || x.claimsVariables

/-- Adds an extension unless what it claims is taken, which is reported. -/
def register (x : Extension) : Act Extensions M α Registration := do
  let outcome := (← Act.part).check x
  let reject (reason : String) : Act Extensions M α Unit :=
    Act.report .warn "extension_rejected" fun _ => [
      ("extension", .text x.name), ("reason", .text reason)]
  match outcome with
  | .registered => Act.change (·.add x)
  | .valuesClaimed => reject "value extra already claimed"
  | .variablesClaimed => reject "variable extra already claimed"
  return outcome

/-- The names of the extensions. -/
def names (e : Extensions) : List String :=
  e.members.map Extension.name

/-- What the extensions that listen are told. -/
def notices (e : Extensions) (notice : String → Notice α) : List (Notice α) :=
  (e.members.filter (!·.silent)).map fun x => notice x.name

/-- Prepares the extensions in order up to the first that cannot be prepared. -/
def init : Act Extensions M α Unit := do
  for x in (← Act.part).members do
    if !x.silent then
      modify fun (e, w) => (e, w.tell [.extensionInit x.name])
    if let some error := x.refusal then
      throw (.error error)

def outline (e : Extensions) : String :=
  Outline.record "ExtensionRegistry" [
    ("extensions", Outline.list (e.names.map Text.quoted)),
    ("value_extra_claimed", Outline.flag e.valuesClaimed),
    ("variable_extra_claimed", Outline.flag e.variablesClaimed)]

end Extensions

end LocalSearch
