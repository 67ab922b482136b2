import LocalSearch.Selector.Basic
/-!
# Generators for any model

Three generators that propose only changes without conflicts, so that no other variable loses its
value. Each looks at the candidates in cyclic order from a random start.

* `changes`: another value for an assigned variable.
* `lazyChanges`: the same with the effect left to the commit.
* `swaps`: the exchange of two variables' values.
* `BasicGenerator`: these three and the generators of another type.
-/

namespace LocalSearch

section

variable {M V α β : Type} [Model M V α]

/-- The first suitable value of the first variable of a list that has one. Unassigned variables and
those with fewer than two values are passed over; the values of the others are looked at in cyclic
order from a random one. `suits` gets a variable, its current value and another one. -/
def scanVariables (model : M) (suits : Nat → V → V → Except Fault (Option β)) :
    List Nat → Attempt Random.Stream (Option β)
  | [] => return none
  | v :: rest => do
    match ← Model.assignment model v with
    | none => scanVariables model suits rest
    | some current =>
      let values ← Model.values model v
      if values.length < 2 then scanVariables model suits rest
      else
        let offset ← draw values.length
        let found : Except Fault (Option β) :=
          (values.rotateLeft offset).findSomeM? (suits v current)
        match ← found with
        | some found => return some found
        | none => scanVariables model suits rest

/-- The variables of a model in cyclic order from a random one, given to a scan; nothing is drawn
if there are fewer than `least`. -/
def fromRandomVariable (model : M) (least : Nat)
    (scan : List Nat → Attempt Random.Stream (Option β)) : Attempt Random.Stream (Option β) := do
  let n := Model.variableCount model
  if n < least then return none
  let start ← draw n
  scan ((List.range n).rotateLeft start)

/-- Whether a variable may change from one value to another one: they differ, and nothing conflicts
with the other one. -/
def mayChange (model : M) (v : Nat) (current value : V) : Except Fault Bool := do
  if Model.same M value current then return false
  return (← Model.conflicts model v value).isEmpty

variable [Scalar α]

/-- Another value without conflicts for an assigned variable, in hill-climbing mode one that does
not make things worse. -/
def changes (hillClimbing : Bool) (model : M) :
    Attempt Random.Stream (Option (Candidate V α)) :=
  fromRandomVariable model 1 <| scanVariables model fun v current value => do
    if !(← mayChange model v current value) then return none
    let move ← ChangeMove.of model v value
    if hillClimbing && 0 < move.delta then return none
    return some (.eager (.change move))

omit [Scalar α] in
/-- Another value without conflicts for an assigned variable, with its effect left to the commit. -/
def lazyChanges (model : M) : Attempt Random.Stream (Option (Candidate V α)) :=
  fromRandomVariable model 1 <| scanVariables model fun v current value => do
    if !(← mayChange model v current value) then return none
    return some (.lazy ⟨v, value⟩)

/-- The first exchange of a variable with one of a list, in hill-climbing mode one that does not
make things worse. -/
def swapWith? (hillClimbing : Bool) (model : M) (first : Nat) (others : List Nat) :
    Except Fault (Option (SwapMove α)) :=
  others.findSomeM? fun second => do
    let some swap ← SwapMove.of? model first second | return none
    if hillClimbing && 0 < swap.delta then return none
    return some swap

/-- The first exchange of an assigned variable of a list with any variable, looked for in cyclic
order from a random one. -/
def scanSwaps (hillClimbing : Bool) (model : M) :
    List Nat → Attempt Random.Stream (Option (SwapMove α))
  | [] => return none
  | first :: rest => do
    match ← Model.assignment model first with
    | none => scanSwaps hillClimbing model rest
    | some _ =>
      let n := Model.variableCount model
      let offset ← draw n
      match ← swapWith? hillClimbing model first ((List.range n).rotateLeft offset) with
      | some swap => return some swap
      | none => scanSwaps hillClimbing model rest

/-- The exchange of the values of two assigned variables. -/
def swaps (hillClimbing : Bool) (model : M) : Attempt Random.Stream (Option (Candidate V α)) := do
  let swap? ← fromRandomVariable model 2 (scanSwaps hillClimbing model)
  return swap?.map fun swap => .eager (.swap swap)

end

/-- The three generators for any model, and generators of a type `X`. -/
inductive BasicGenerator (X : Type)
  | change (hillClimbing : Bool)
  | swap (hillClimbing : Bool)
  | lazyChange
  | custom (generator : X)

namespace BasicGenerator

variable {X M V α : Type} [Model M V α] [Scalar α] [MoveGenerator X M V α]

omit [Model M V α] [Scalar α] in
/-- Prepares for a search. -/
def init (model : M) : Attempt (BasicGenerator X) Unit := do
  match ← get with
  | custom x => Attempt.focus (fun _ => x) (fun _ x => custom x) (MoveGenerator.init model)
  | _ => return

/-- Runs a generator without a state of its own. -/
def stateless {G β : Type} (x : Attempt Random.Stream β) : Attempt (G × Random.Stream) β :=
  Attempt.focus Prod.snd (fun (g, _) random => (g, random)) x

/-- Proposes a candidate. -/
def propose (model : M) :
    Attempt (BasicGenerator X × Random.Stream) (Option (Candidate V α)) := do
  match (← get).1 with
  | change hillClimbing => stateless (changes hillClimbing model)
  | swap hillClimbing => stateless (swaps hillClimbing model)
  | lazyChange => stateless (lazyChanges model)
  | custom x =>
    Attempt.focus (fun (_, random) => (x, random)) (fun _ (x, random) => (custom x, random))
      (MoveGenerator.propose model)

omit [Model M V α] [Scalar α] in
/-- Changes the mode. -/
def setHillClimbing (M : Type) [MoveGenerator X M V α] (enabled : Bool) :
    BasicGenerator X → BasicGenerator X
  | change _ => change enabled
  | swap _ => swap enabled
  | lazyChange => lazyChange
  | custom x => custom (MoveGenerator.setHillClimbing M enabled x)

omit [Model M V α] [Scalar α] in
def outline (M : Type) [MoveGenerator X M V α] : BasicGenerator X → String
  | change hillClimbing =>
    Outline.record "ChangeMoveSelector" [("hill_climbing", Outline.flag hillClimbing)]
  | swap hillClimbing =>
    Outline.record "SwapMoveSelector" [("hill_climbing", Outline.flag hillClimbing)]
  | lazyChange => "LazyChangeMoveSelector"
  | custom x => MoveGenerator.outline M x

instance : MoveGenerator (BasicGenerator X) M V α where
  init := init
  propose := propose
  setHillClimbing := setHillClimbing M
  outline := outline M

end BasicGenerator

end LocalSearch
