import LocalSearch.Selector.Roulette
import LocalSearch.Selector.Basic
import LocalSearch.Sequence.Scores
import LocalSearch.World
/-!
# Heuristic sequences

A sequence picks which selector follows a chain of selectors and whether the chain ends with it, by
the scores that successful chains have earned.

* `Sequence`: selectors with score tables.
* `Sequence.choose`: the pick, as a function of the chain and the random stream.
* `Sequence.pick`, `Sequence.propose`: picking a selector and asking one, as parts of a search.
* `Act`: an operation on a part of a search and the world it works on.
-/

namespace LocalSearch

/-- An operation on a part `S` of a search and the world. -/
abbrev Act (S M α β : Type) := Attempt (S × World M α) β

namespace Act

variable {S T M V α β : Type}

/-- An operation on the part alone. -/
@[inline]
def onPart (x : Attempt S β) : Act S M α β :=
  Attempt.focus Prod.fst (fun (_, w) s => (s, w)) x

/-- An operation on the world alone. -/
@[inline]
def onWorld (x : Attempt (World M α) β) : Act S M α β :=
  Attempt.focus Prod.snd (fun (s, _) w => (s, w)) x

/-- An operation on a part of the part. -/
@[inline]
def within (view : S → T) (put : S → T → S) (x : Act T M α β) : Act S M α β :=
  Attempt.focus (fun (s, w) => (view s, w)) (fun (s, _) (t, w) => (put s t, w)) x

/-- Changes the part. -/
@[inline]
def change (f : S → S) : Act S M α Unit :=
  modify fun (s, w) => (f s, w)

/-- The part. -/
@[inline]
def part : Act S M α S :=
  return (← get).1

/-- The solution. -/
@[inline]
def solution : Act S M α (Solution M α) :=
  return (← get).2.solution

/-- Reports an event. -/
@[inline]
def report (level : Level) (name : String) (fields : Unit → List (String × FieldValue α)) :
    Act S M α Unit :=
  modify fun (s, w) => (s, w.report level name fields)

/-- An operation that draws from the random stream. -/
@[inline]
def withRandom (x : Attempt (S × Random.Stream) β) : Act S M α β :=
  Attempt.focus (fun (s, w) => (s, w.random)) (fun (_, w) (s, random) => (s, { w with random })) x

end Act

/-- Selectors with score tables. -/
structure Sequence (G α : Type) where
  selectors : List (Selector G α)
  scores : Scores α
  config : SequenceConfig
  /-- The last pick ends its chain. -/
  ended : Bool

namespace Sequence

variable {G M V α : Type} [Scalar α]

omit [Scalar α] in
/-- A sequence that learns into given tables, which must cover its selectors. -/
def withScores (selectors : List (Selector G α)) (config : SequenceConfig) (scores : Scores α) :
    Except SearchError (Sequence G α) :=
  if selectors.isEmpty then
    .error (.config "a heuristic sequence needs at least one neighbour selector")
  else if scores.selectorCount ≠ selectors.length then
    .error (.config ("shared scores cover " ++ toString scores.selectorCount ++
      " selectors, sequence has " ++ toString selectors.length))
  else .ok ⟨selectors, scores, config, false⟩

/-- A sequence with fresh tables. -/
def of (selectors : List (Selector G α)) (config : SequenceConfig) :
    Except SearchError (Sequence G α) :=
  withScores selectors config (.fresh selectors.length)

/-- All scores back at one. -/
def resetScores (s : Sequence G α) : Sequence G α :=
  { s with scores := s.scores.reset, ended := false }

omit [Scalar α] in
/-- The selectors that may follow a chain: all of them, or those that are not in it, or all again if
none is left. -/
def admissible (s : Sequence G α) (chain : List Nat) : List Nat :=
  let all := List.range s.selectors.length
  if s.config.selectionType.allowsRepeats then all
  else
    match all.filter fun i => !chain.contains i with
    | [] => all
    | left => left

/-- The row of the transition table for a chain. -/
def rowOf (chain : List Nat) : Nat :=
  match chain.getLast? with
  | none => 0
  | some last => last + 1

/-- Picks one of at least one admissible selectors: the only one; or by a roulette wheel over their
transition scores; or the better of two random ones, of two equally good ones the second. -/
def chooseAmong (s : Sequence G α) (row : Nat) (candidates : List Nat) (random : Random.Stream) :
    Except Fault (Nat × Random.Stream) := do
  match candidates with
  | [only] => return (only, random)
  | _ =>
    if s.config.selectionType.usesRoulette then
      let weights ← candidates.mapM (s.scores.transition row)
      let (position, random) := roulette weights random
      return (← fetch candidates (position.getD 0), random)
    else
      let ((i, j), random) := random.pair candidates.length
      let first ← fetch candidates i
      let second ← fetch candidates j
      let better := (← s.scores.transition row second) < (← s.scores.transition row first)
      return (if better then first else second, random)

/-- Whether a picked selector ends a chain: always at full length or without chaining, and otherwise
with the probability that its outcome scores say. -/
def chooseEnd (s : Sequence G α) (chain : List Nat) (picked : Nat) (random : Random.Stream) :
    Except Fault (Bool × Random.Stream) := do
  if s.selectors.length ≤ chain.length + 1 then return (true, random)
  else if !s.config.sequence then return (true, random)
  else
    let continuedScore ← s.scores.outcome picked false
    let endedScore ← s.scores.outcome picked true
    let (u, random) : α × Random.Stream := random.unit
    return (0 < u * (continuedScore + endedScore) - continuedScore, random)

/-- The selector that follows a chain, and whether it ends the chain. -/
def choose (s : Sequence G α) (chain : List Nat) (random : Random.Stream) :
    Except Fault (Nat × Bool × Random.Stream) := do
  let (picked, random) ← s.chooseAmong (rowOf chain) (s.admissible chain) random
  let (ended, random) ← s.chooseEnd chain picked random
  return (picked, ended, random)

/-- Picks the selector that follows a chain. -/
def pick (chain : List Nat) : Act (Sequence G α) M α Nat := do
  let (s, w) ← get
  let (picked, ended, random) ← s.choose chain w.random
  set ({ s with ended }, { w with random })
  Act.report .trace "sequence_pick" fun _ => [
    ("selector", .text ((s.selectors[picked]?.map Selector.name).getD "")),
    ("chain_len", .count chain.length), ("ended", .flag ended)]
  return picked

/-- Learns from a selector's use after a row. -/
def learn (s : Sequence G α) (method : LearningMethod) (previous current : Nat) (ended : Bool)
    (delta time : α) : Except Fault (Sequence G α) := do
  return { s with
    scores := ← s.scores.reward previous current ended (learningIncrement method delta time) }

omit [Scalar α] in
/-- Changes a selector, if it exists. -/
def modifySelector (s : Sequence G α) (index : Nat) (f : Selector G α → Selector G α) :
    Sequence G α :=
  { s with selectors := s.selectors.modify index f }

/-- Folds an improvement into the points of a selector. -/
def updatePoints (s : Sequence G α) (index : Nat) (improvement : α) : Sequence G α :=
  s.modifySelector index (·.updatePoints improvement)

variable [MoveGenerator G M V α]

/-- Prepares every selector for a search and resets the scores. -/
def init (model : M) : Attempt (Sequence G α) Unit := do
  Attempt.focus (·.selectors) (fun s selectors => { s with selectors })
    (Attempt.each (Selector.init model))
  modify resetScores

omit [Scalar α] in
/-- Changes the mode of every selector. -/
def setHillClimbing (M : Type) [MoveGenerator G M V α] (enabled : Bool) (s : Sequence G α) :
    Sequence G α :=
  { s with selectors := s.selectors.map (Selector.setHillClimbing M enabled) }

omit [Scalar α] in
/-- Asks a selector for a candidate. -/
def propose (index : Nat) : Act (Sequence G α) M α (Option (Candidate V α)) := do
  let (s, w) ← get
  let selector ← fetch s.selectors index
  Act.withRandom <| Attempt.focus (fun (_, random) => (selector, random))
    (fun (s, _) (selector, random) =>
      ({ s with selectors := s.selectors.set index selector }, random))
    (Selector.propose w.solution.model)

omit [MoveGenerator G M V α] in
/-- The sequence in one line. -/
def outline (s : Sequence G α) : String :=
  Outline.record "HeuristicSequence" [
    ("selectors", Outline.list (s.selectors.map Selector.outline)),
    ("config", s.config.outline), ("ended", Outline.flag s.ended)]

end Sequence

end LocalSearch
