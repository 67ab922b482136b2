import LocalSearch.Journal
/-!
# Filters of events

Which events reach the terminal, by the part of the program they come from and their level.

* `Directive`: the least important level that passes for a part of the program.
* `Filter`: a list of directives, of which the most specific one decides.
* `Filter.parse?`, `Filter.ofSetting`: reads a filter; one that cannot be read counts as none.
-/

namespace LocalSearch.Console

/-- Lets the events of a part of the program pass. -/
structure Directive where
  /-- How the names of the parts start; the empty text stands for the whole program. -/
  target : String
  /-- The least important level that passes; `none` lets nothing pass. -/
  level : Option Level
deriving Repr, DecidableEq

/-- The directives of a filter. -/
abbrev Filter := List Directive

namespace Filter

/-- Whether an event passes. What no directive covers does not. -/
def allows (f : Filter) (target : String) (level : Level) : Bool :=
  let covering := f.filter fun d => target.startsWith d.target
  let decisive := covering.foldl (fun (best : Option Directive) d =>
    match best with
    | some b => if b.target.length ≤ d.target.length then some d else some b
    | none => some d) none
  match decisive with
  | some ⟨_, some least⟩ => level.rank ≤ least.rank
  | _ => false

/-- The level that a word names in any case, or a digit; `some none` for the word that lets nothing
pass. -/
def level? (s : String) : Option (Option Level) :=
  match String.ofList (s.toList.map Char.toLower) with
  | "off" | "0" => some none
  | "error" | "1" => some (some .error)
  | "warn" | "2" => some (some .warn)
  | "info" | "3" => some (some .info)
  | "debug" | "4" => some (some .debug)
  | "trace" | "5" => some (some .trace)
  | _ => none

/-- The characters of the names of parts. -/
def isTargetChar (c : Char) : Bool :=
  c.isAlphanum || c == '_' || c == ':' || c == '-'

/-- Reads a directive: a level, a part, or both with an equals sign in between. -/
def directive? (s : String) : Option Directive :=
  match level? s with
  | some level => some ⟨"", level⟩
  | none =>
    let target := s.toList.takeWhile (· != '=')
    if target.isEmpty || !target.all isTargetChar then none
    else
      match s.toList.drop target.length with
      | [] | ['='] => some ⟨String.ofList target, some .trace⟩
      | _ :: rest => (level? (String.ofList rest)).map (⟨String.ofList target, ·⟩)

/-- Reads directives with commas in between. Without any, errors pass. -/
def parse? (s : String) : Option Filter := do
  let parts := (s.splitOn ",").filter (· != "")
  if parts.isEmpty then return [⟨"", some .error⟩]
  parts.mapM directive?

/-- The filter without a setting: the events of the search that matter to everybody. -/
def standard : Filter :=
  [⟨"seqforge_solver", some .info⟩]

/-- The filter of a setting, the standard one if there is none or it cannot be read. -/
def ofSetting (s : Option String) : Filter :=
  ((s.bind parse?).getD standard)

end Filter

end LocalSearch.Console
