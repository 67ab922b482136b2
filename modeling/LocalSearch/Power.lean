/-!
# Powers

Powers of two and ten, and the integers that fit in 64 bits with a sign. How many words of 32 and of
64 bits there are is `UInt32.size` and `UInt64.size`.
-/

namespace LocalSearch

/-- A power of two. -/
def twoPow (n : Nat) : Nat := Nat.pow 2 n

/-- A power of ten. -/
def tenPow (n : Nat) : Nat := Nat.pow 10 n

/-- Whether an integer fits in 64 bits with a sign. -/
def isLong (i : Int) : Bool :=
  -9223372036854775808 ≤ i && i < 9223372036854775808

end LocalSearch
