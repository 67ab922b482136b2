import LocalSearch.Failure
import LocalSearch.Scalar
import LocalSearch.Text.Blank
/-!
# Selector specifications

A specification such as `change@1;swap@0.5` names selectors by their registry keys, each with an
optional bonus.

* `Specification.parse`: reads a specification. Empty parts count for nothing, but a specification
  without any selector is an error.
-/

namespace LocalSearch

/-- One selector of a specification. -/
structure Specification (α : Type) where
  key : String
  bonus : α
deriving Repr, DecidableEq

namespace Specification

variable {α : Type} [Scalar α]

/-- Reads one part, which has no blanks at its ends. The first `@` ends the key, and the bonus is
one without it. -/
def parsePart (part : List Char) : Except ConfigError (Specification α) :=
  match part.dropWhile (· ≠ '@') with
  | [] => .ok ⟨String.ofList part, 1⟩
  | _ :: bonusText =>
    let key := part.takeWhile (· ≠ '@')
    match (Scalar.parse? (String.ofList (Text.trimList bonusText)) : Option α) with
    | none =>
      .error (.malformed (String.ofList (Text.trimList key)) (String.ofList bonusText)
        "a selector bonus")
    | some bonus =>
      if bonus < 0 then
        .error (.invalid ("selector " ++ String.ofList key ++ " has a negative bonus"))
      else .ok ⟨String.ofList (Text.trimList key), bonus⟩

/-- The parts of a specification without the blanks at their ends, less the empty ones. -/
def parts (s : String) : List (List Char) :=
  ((Text.splitAt ';' s.toList).map Text.trimList).filter (!·.isEmpty)

/-- Reads a specification. The error is that of the first bad part. -/
def parse (s : String) : Except ConfigError (List (Specification α)) := do
  let specs ← (parts s).mapM parsePart
  if specs.isEmpty then
    throw (.invalid ("empty selector specification " ++ Text.quoted s))
  return specs

end Specification

end LocalSearch
