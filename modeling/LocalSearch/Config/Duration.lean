import LocalSearch.Failure
import LocalSearch.Power
import LocalSearch.Scalar
/-!
# Durations

A span of time in whole nanoseconds.
-/

namespace LocalSearch

/-- A span of time. -/
structure Duration where
  nanoseconds : Nat
deriving Repr, DecidableEq

namespace Duration

def ofMillis (n : Nat) : Duration := ⟨n * 1000000⟩

def ofSeconds (n : Nat) : Duration := ⟨n * 1000000000⟩

/-- The whole seconds. -/
def seconds (d : Duration) : Nat := d.nanoseconds / 1000000000

/-- The nanoseconds beyond the whole seconds. -/
def subseconds (d : Duration) : Nat := d.nanoseconds % 1000000000

variable {α : Type} [Scalar α]

/-- A number of seconds as a duration; a fault if it is no finite number of fewer than `2 ^ 64`
seconds. -/
def ofScalar (seconds : α) : Except Fault Duration :=
  match Scalar.toNanoseconds? seconds with
  | some n => .ok ⟨n⟩
  | none => .error .durationRange

/-- The duration as a number of seconds. -/
def toScalar (d : Duration) : α :=
  Scalar.ofNat d.seconds + Scalar.ofNat d.subseconds / Scalar.ofNat 1000000000

/-- A quotient by a power of ten as a decimal without trailing zeros. -/
def decimal (n places : Nat) : String :=
  let fraction := n % tenPow places
  let digits := toString fraction
  let padded := List.replicate (places - digits.length) '0' ++ digits.toList
  let kept := (padded.reverse.dropWhile (· = '0')).reverse
  toString (n / tenPow places) ++ (if kept.isEmpty then "" else "." ++ String.ofList kept)

/-- The duration in the greatest unit of which it holds at least one. -/
def outline (d : Duration) : String :=
  let n := d.nanoseconds
  if tenPow 9 ≤ n then decimal n 9 ++ "s"
  else if tenPow 6 ≤ n then decimal n 6 ++ "ms"
  else if tenPow 3 ≤ n then decimal n 3 ++ "µs"
  else toString n ++ "ns"

end Duration

end LocalSearch
