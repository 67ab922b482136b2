import LocalSearch.Text.Reader
/-!
# Dates and times

The dates and times of TOML: a date, a time of day, or both, and in the last case perhaps with the
distance from universal time.

* `Moment`: a date, a time, or both.
* `Moment.text`: the text, with `T` between date and time and a fraction of a second without
  trailing zeros.
* `Moment.read`: reads a date or a time.
-/

namespace LocalSearch.Toml

open Text

/-- A day of the calendar. -/
structure Date where
  year : Nat
  month : Nat
  day : Nat
deriving Repr, DecidableEq

/-- A time of day. -/
structure Clock where
  hour : Nat
  minute : Nat
  second : Nat
  nanosecond : Nat
deriving Repr, DecidableEq

/-- The distance of a local time from universal time. -/
inductive Offset
  | universal
  | minutes (n : Int)
deriving Repr, DecidableEq

/-- A date, a time of day, or both. -/
inductive Moment
  | date (d : Date)
  | clock (c : Clock)
  | both (d : Date) (c : Clock) (offset : Option Offset)
deriving Repr, DecidableEq

/-! ## Writing -/

/-- A number with zeros in front up to a width. -/
def padded (width n : Nat) : String :=
  let digits := toString n
  String.ofList (List.replicate (width - digits.length) '0') ++ digits

def Date.text (d : Date) : String :=
  padded 4 d.year ++ "-" ++ padded 2 d.month ++ "-" ++ padded 2 d.day

def Clock.text (c : Clock) : String :=
  let fraction := ((padded 9 c.nanosecond).toList.reverse.dropWhile (· == '0')).reverse
  padded 2 c.hour ++ ":" ++ padded 2 c.minute ++ ":" ++ padded 2 c.second ++
    (if fraction.isEmpty then "" else "." ++ String.ofList fraction)

def Offset.text : Offset → String
  | universal => "Z"
  | minutes n =>
    (if n < 0 then "-" else "+") ++ padded 2 (n.natAbs / 60) ++ ":" ++ padded 2 (n.natAbs % 60)

def Moment.text : Moment → String
  | date d => d.text
  | clock c => c.text
  | both d c offset => d.text ++ "T" ++ c.text ++ (offset.map Offset.text).getD ""

/-! ## Reading -/

/-- A number of exactly so many digits. -/
def fixedNumber (width : Nat) : Reader Nat := do
  let digits ← Reader.exactly width Char.isDigit
  digitsValue? 10 digits

/-- Whether a year has a 29th of February. -/
def isLeap (year : Nat) : Bool :=
  year % 4 == 0 && (year % 100 != 0 || year % 400 == 0)

/-- The number of days of a month. -/
def daysOf (year month : Nat) : Nat :=
  if month = 2 then (if isLeap year then 29 else 28)
  else if month = 4 ∨ month = 6 ∨ month = 9 ∨ month = 11 then 30
  else 31

/-- Reads a day of the calendar. -/
def Date.read : Reader Date := do
  let year ← fixedNumber 4
  Reader.char '-'
  let month ← fixedNumber 2
  Reader.check (1 ≤ month && month ≤ 12)
  Reader.char '-'
  let day ← fixedNumber 2
  Reader.check (1 ≤ day && day ≤ daysOf year month)
  return ⟨year, month, day⟩

/-- Reads the hour and the minute. -/
def readHourMinute : Reader (Nat × Nat) := do
  let hour ← fixedNumber 2
  Reader.check (hour ≤ 23)
  Reader.char ':'
  let minute ← fixedNumber 2
  Reader.check (minute ≤ 59)
  return (hour, minute)

/-- Reads a fraction of a second in nanoseconds; further digits are dropped. -/
def readFraction : Reader Nat := do
  if !(← Reader.optional '.') then return 0
  let digits ← Reader.takeWhile Char.isDigit
  Reader.check !digits.isEmpty
  digitsValue? 10 ((digits ++ List.replicate 9 '0').take 9)

/-- Reads a time of day; the second may be a leap second. -/
def Clock.read : Reader Clock := do
  let (hour, minute) ← readHourMinute
  Reader.char ':'
  let second ← fixedNumber 2
  Reader.check (second ≤ 60)
  return ⟨hour, minute, second, ← readFraction⟩

/-- Reads the distance from universal time, if there is one. -/
def Offset.read : Reader (Option Offset) := do
  match ← Reader.peek with
  | some 'Z' | some 'z' =>
    let _ ← Reader.one fun _ => true
    return some .universal
  | some '+' | some '-' =>
    let sign ← Reader.one fun _ => true
    let (hour, minute) ← readHourMinute
    let n : Int := 60 * hour + minute
    return some (.minutes (if sign = '-' then -n else n))
  | _ => return none

/-- Whether a text starts with a date. -/
def startsDate (s : List Char) : Bool :=
  (s.take 4).all Char.isDigit && s[4]? == some '-'

/-- Whether a text starts with a time of day. -/
def startsClock (s : List Char) : Bool :=
  (s.take 2).all Char.isDigit && s[2]? == some ':'

/-- Reads a date or a time. A blank between both is as good as a `T`. -/
def Moment.read : Reader Moment := do
  if startsClock (← get) then return .clock (← Clock.read)
  let date ← Date.read
  match ← get with
  | c :: rest =>
    if (c == 'T' || c == 't' || c == ' ') && startsClock rest then
      set rest
      let clock ← Clock.read
      return .both date clock (← Offset.read)
    else return .date date
  | [] => return .date date

end LocalSearch.Toml
