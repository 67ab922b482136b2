import LocalSearch.Console.Paint
import LocalSearch.Journal
import LocalSearch.Power
import LocalSearch.Scalar
/-!
# Lines for events

The events of a search as lines on a terminal. Not every event is shown.

* `Event.textOf?`, `Event.countOf?`, `Event.numberOf?`: the fields of an event by name and kind.
* `message?`: what the line of an event says.
* `line?`: the whole line, with the time since the search was started.
* `banner`: what comes before the first line.
-/

namespace LocalSearch

namespace Event

variable {α β : Type}

/-- The last field with a name that can be read. -/
def fieldOf? (e : Event α) (name : String) (read? : FieldValue α → Option β) : Option β :=
  e.fields.reverse.findSome? fun (field, value) => if field == name then read? value else none

/-- A text without the quotes at its ends. -/
def unquoted (s : String) : String :=
  let isQuote := (· == '"')
  String.ofList ((s.toList.dropWhile isQuote).reverse.dropWhile isQuote).reverse

/-- The text of a field. Quotes around a value that is not given as a text do not count. -/
def textOf? (e : Event α) (name : String) : Option String :=
  e.fieldOf? name fun
    | .text s => some s
    | .shown s => some (unquoted s)
    | .outlined s => some (unquoted s)
    | .flag b => some (if b then "true" else "false")
    | _ => none

/-- The integer in a field. A count beyond 63 bits wraps around. -/
def integerOf? (e : Event α) (name : String) : Option Int :=
  e.fieldOf? name fun
    | .count n => some (if isLong n then n else (n : Int) - UInt64.size)
    | .integer i => some i
    | _ => none

/-- The count in a field. -/
def countOf? (e : Event α) (name : String) : Option Nat :=
  e.fieldOf? name fun
    | .count n => some n
    | .integer i => if 0 ≤ i then some i.toNat else none
    | _ => none

/-- The number in a field. -/
def numberOf? (e : Event α) (name : String) : Option α :=
  e.fieldOf? name fun
    | .number x => some x
    | _ => none

end Event

namespace Console

variable {α : Type} [Scalar α]

/-! ## Numbers -/

/-- A number: without decimals if it is whole and not too great, otherwise with three of them. -/
def plain (x : α) : String :=
  if x == 0 then "0"
  else if Scalar.floor x == x && x < 1e15 && -1e15 < x then Scalar.fixed 0 x
  else Scalar.fixed 3 x

/-- A penalty, green when there is none. -/
def value (x : α) : String :=
  painted (if x == 0 then .brightGreen else .white) (plain x)

/-- A time in milliseconds, seconds, or minutes and seconds. -/
def seconds (x : α) : String :=
  if x < 1 then toString (Scalar.toCount (x * 1000)) ++ "ms"
  else if x < 60 then Scalar.fixed 2 x ++ "s"
  else
    let whole := Scalar.toCount (Scalar.floor x)
    toString (whole / 60) ++ "m " ++ toString (whole % 60) ++ "s"

/-! ## Parts of lines -/

/-- A part of a line after a bar. -/
def part (s : String) : String :=
  " │ " ++ s

/-- A part of a line for a field that may be missing. -/
def optionalPart {β : Type} (x : Option β) (write : β → String) : String :=
  match x with
  | some b => part (write b)
  | none => ""

/-- The number of unassigned variables, if there are any. -/
def openPart (e : Event α) : String :=
  optionalPart ((e.countOf? "unassigned").filter (0 < ·)) fun n =>
    painted .brightRed (grouped n) ++ " unassigned"

/-- The count in a field, zero if it is missing. -/
def count (e : Event α) (name : String) : String :=
  grouped ((e.countOf? name).getD 0)

/-- The penalty in a field, zero if it is missing. -/
def valueOf (e : Event α) (name : String) : String :=
  value ((e.numberOf? name).getD 0)

/-- The name of a final state in its color. -/
def state (s : String) : String :=
  bold (painted (match s with
    | "DONE" => .brightGreen
    | "STOPPED" => .brightYellow
    | "FAILED" => .brightRed
    | _ => .white) s)

/-! ## Messages -/

/-- The start of a search. -/
def solveStart (e : Event α) : String :=
  bold (painted .brightGreen "▶") ++ " Solving" ++
    part (painted .brightYellow (count e "variables") ++ " variables") ++
    part (painted .brightYellow (count e "unassigned") ++ " unassigned") ++
    part (painted .brightMagenta ((e.textOf? "strategy").getD "unknown")) ++
    optionalPart (e.numberOf? "total_value") fun x => "value " ++ value x

/-- The double line of the box of a summary. -/
def rule : String :=
  String.ofList (List.replicate 58 '═')

/-- A line of the box of a summary. -/
def boxLine (label text : String) : String :=
  let side := painted .brightCyan "║"
  side ++ "  " ++ padRight 18 label ++ padLeft 36 text ++ "  " ++ side ++ "\n"

/-- The end of a search, with a box that sums it up. -/
def solveEnd (e : Event α) : String :=
  let ending := (e.textOf? "state").getD "UNKNOWN"
  let best := ((e.numberOf? "best_value").map plain).getD "N/A"
  let bestIteration := match e.integerOf? "best_iteration" with
    | some i => if 0 ≤ i then grouped i.toNat else "none"
    | none => "none"
  bold (painted .brightCyan "■") ++ " Solving ended" ++ part (state ending) ++
    part (painted .white (count e "iterations") ++ " iterations") ++
    part ("best " ++ painted .brightGreen best) ++ "\n\n" ++
    painted .brightCyan ("╔" ++ rule ++ "╗") ++ "\n" ++
    boxLine "State:" ending ++ boxLine "Best Value:" best ++
    boxLine "Best Iteration:" bestIteration ++
    boxLine "Time:" (seconds ((e.numberOf? "time").getD 0)) ++
    painted .brightCyan ("╚" ++ rule ++ "╝") ++ "\n"

/-- The failure of a search. -/
def solveFailed (e : Event α) : String :=
  bold (painted .brightRed "✗") ++ " Solving failed" ++
    part (painted .brightRed ((e.textOf? "error").getD "unknown error"))

/-- The change to another phase. -/
def phaseSwitch (e : Event α) : String :=
  painted .brightBlue "▸" ++ " " ++ painted .white ((e.textOf? "from").getD "?") ++ " → " ++
    bold (painted .white ((e.textOf? "to").getD "?")) ++
    optionalPart (e.countOf? "iteration") (fun n => "iteration " ++ grouped n) ++
    optionalPart (e.numberOf? "total_value") (fun x => "value " ++ value x) ++ openPart e

/-- The first complete solution. -/
def completeSolution (e : Event α) : String :=
  bold (painted .brightGreen "★") ++ " Complete solution" ++
    part ("iteration " ++ count e "iteration") ++ part ("value " ++ valueOf e "total_value")

/-- A new best state. -/
def bestSaved (e : Event α) : String :=
  painted .brightGreen "↓" ++ " New best" ++ part ("iteration " ++ count e "iteration") ++
    part ("value " ++ valueOf e "total_value") ++ openPart e

/-- A schedule that heats up or cools down. -/
def schedule (icon : String) (name : String) (e : Event α) : String :=
  icon ++ " " ++ painted .white ((e.textOf? "strategy").getD "") ++ " " ++ bold name ++
    optionalPart (e.numberOf? "bound") (fun x => "bound " ++ painted .brightYellow (plain x)) ++
    optionalPart (e.numberOf? "temperature")
      (fun x => "temperature " ++ painted .brightYellow (Scalar.fixed 6 x)) ++
    optionalPart (e.countOf? "idle") (fun n => "idle " ++ toString n) ++
    optionalPart (e.countOf? "iteration") (fun n => "iteration " ++ grouped n)

/-- A restart of the construction. -/
def restart (e : Event α) : String :=
  bold (painted .brightYellow "↻") ++ " Restart #" ++ toString ((e.countOf? "restarts").getD 0) ++
    part ("iteration " ++ count e "iteration")

/-- The speed and the values of a running search. -/
def progress (e : Event α) : String :=
  painted .brightCyan "⚡" ++ " " ++ painted .white (padLeft 10 (count e "iterations")) ++
    " iterations" ++
    part (bold (painted .brightMagenta (padLeft 12 (count e "speed"))) ++ "/s") ++
    part ("value " ++ valueOf e "total_value") ++ part ("best " ++ valueOf e "best_value") ++
    openPart e

/-- A committed move. -/
def step (e : Event α) : String :=
  let x := (e.numberOf? "value").getD 0
  (if x ≤ 0 then painted .brightGreen "✓" else painted .brightRed "↑") ++ " Iteration " ++
    painted .brightBlack (padLeft 10 (count e "iteration")) ++
    part ("Δ " ++ painted .brightBlack (plain x))

/-- What the line of an event says, `none` for an event that is not shown. -/
def message? (e : Event α) : Option String :=
  match e.textOf? "event" with
  | some "solve_start" => some (solveStart e)
  | some "solve_end" => some (solveEnd e)
  | some "solve_failed" => some (solveFailed e)
  | some "nothing_to_solve" => some (bold (painted .brightYellow "■") ++ " Nothing to solve")
  | some "phase_switch" => some (phaseSwitch e)
  | some "complete_solution" => some (completeSolution e)
  | some "best_saved" => some (bestSaved e)
  | some "reheat" => some (schedule (painted .brightRed "♨") "reheat" e)
  | some "cool" => some (schedule (painted .brightBlue "❄") "cool" e)
  | some "restart" => some (restart e)
  | some "progress" => some (progress e)
  | some "step" => if e.level = .trace then some (step e) else none
  | _ => none

/-- The column of the time since the search was started. -/
def elapsed (x : α) : String :=
  painted .brightBlack (padLeft 7 (Scalar.fixed 3 x) ++ "s")

/-- The line of an event so many seconds after the start of the search. -/
def line? (x : α) (e : Event α) : Option String :=
  (message? e).map fun message => elapsed x ++ " " ++ message ++ "\n"

/-! ## Banner -/

/-- The version of the program. -/
def version : String := "0.3.0"

/-- The name of the program in large letters, and its version. -/
def banner : String :=
  painted .brightCyan (String.join [
    "\n",
    " ____             _____\n",
    "/ ___|  ___  __ _|  ___|__  _ __ __ _  ___\n",
    "\\___ \\ / _ \\/ _` | |_ / _ \\| '__/ _` |/ _ \\\n",
    " ___) |  __/ (_| |  _| (_) | | | (_| |  __/\n",
    "|____/ \\___|\\__, |_|  \\___/|_|  \\__, |\\___|\n",
    "               |_|              |___/\n"]) ++ "\n" ++
    bold (painted .brightWhite
      ("              v" ++ version ++ " - Adaptive Timetabling Search\n")) ++ "\n"

end Console

end LocalSearch
