import LocalSearch.Selector.Basic
import LocalSearch.Selector.Roulette
/-!
# Pools

A pool is a generator that leaves every proposal to one of several selectors, its children. They are
picked by a roulette wheel over their weights, or uniformly. A pool that learns moves the points of
the picked child towards the improvement that its candidate promises.
-/

namespace LocalSearch

/-- Several selectors that act as one generator. -/
structure Pool (G α : Type) where
  children : List (Selector G α)
  /-- Children are picked uniformly. -/
  random : Bool
  /-- Children gain and lose points. -/
  update : Bool

namespace Pool

variable {G M V α : Type} [Scalar α]

/-- Picks a child; there is none to pick in an empty pool. -/
def pick (p : Pool G α) (random : Random.Stream) : Option Nat × Random.Stream :=
  if p.children.isEmpty then (none, random)
  else if p.random then
    let (index, random) := random.belowPositive p.children.length
    (some index, random)
  else roulette (p.children.map Selector.weight) random

/-- The points of a child after it was asked: a known improvement counts, a missing candidate
counts as none, and a lazy candidate changes nothing. -/
def learn (child : Selector G α) : Option (Candidate V α) → Selector G α
  | some (.eager move) => child.updatePoints (-move.delta)
  | some (.lazy _) => child
  | none => child.updatePoints 0

variable [MoveGenerator G M V α]

omit [Scalar α] in
/-- Prepares all children. -/
def init (model : M) : Attempt (Pool G α) Unit :=
  Attempt.focus (·.children) (fun p children => { p with children })
    (Attempt.each (Selector.init model))

/-- Replaces a child. -/
def setChild (p : Pool G α) (index : Nat) (child : Selector G α) : Pool G α :=
  { p with children := p.children.set index child }

/-- Asks a picked child for a candidate. -/
def propose (model : M) : Attempt (Pool G α × Random.Stream) (Option (Candidate V α)) := do
  let (pool, random) ← get
  let (index?, random) := pool.pick random
  set (pool, random)
  let some index := index? | return none
  let some child := pool.children[index]? | return none
  let candidate ← Attempt.focus (fun (_, random) => (child, random))
    (fun (pool, _) (child, random) => (pool.setChild index child, random))
    (Selector.propose model)
  if pool.update then
    modify fun (pool, random) =>
      match pool.children[index]? with
      | some child => (pool.setChild index (learn child candidate), random)
      | none => (pool, random)
  return candidate

omit [Scalar α] in
/-- Changes the mode of all children. -/
def setHillClimbing (M : Type) [MoveGenerator G M V α] (enabled : Bool) (p : Pool G α) :
    Pool G α :=
  { p with children := p.children.map (Selector.setHillClimbing M enabled) }

omit [MoveGenerator G M V α] in
def outline (p : Pool G α) : String :=
  Outline.record "SelectorPool" [
    ("children", Outline.list (p.children.map Selector.outline)),
    ("random", Outline.flag p.random), ("update", Outline.flag p.update)]

instance : MoveGenerator (Pool G α) M V α where
  init := init
  propose := propose
  setHillClimbing := setHillClimbing M
  outline := outline

end Pool

end LocalSearch
