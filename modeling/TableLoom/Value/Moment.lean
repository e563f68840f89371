import TableLoom.Text.Line

/-!
Days and times of day.
-/

namespace TableLoom

/-- A time of day, perhaps with the distance of its zone in minutes. -/
structure Clock where
  hour : Nat
  minute : Nat
  second : Nat
  micro : Nat := 0
  zone : Option Int := none
  deriving DecidableEq

/-- A day, perhaps with a time of day. -/
structure Moment where
  year : Nat
  month : Nat
  day : Nat
  clock : Option Clock := none
  deriving DecidableEq

namespace Clock

def digits (width n : Nat) : String :=
  let s := toString n
  Text.repeated (width - s.length) '0' ++ s

def zoneText (minutes : Int) : String :=
  let n := minutes.natAbs
  (if minutes < 0 then "-" else "+") ++ digits 2 (n / 60) ++ ":" ++ digits 2 (n % 60)

def text (c : Clock) : String :=
  s!"{digits 2 c.hour}:{digits 2 c.minute}:{digits 2 c.second}"
    ++ (if c.micro == 0 then "" else "." ++ digits 6 c.micro)
    ++ (c.zone.map zoneText).getD ""

def isValid (c : Clock) : Bool :=
  c.hour < 24 && c.minute < 60 && c.second < 60

end Clock

namespace Moment

def isLeap (year : Nat) : Bool :=
  (year % 4 == 0 && year % 100 != 0) || year % 400 == 0

def daysIn (year month : Nat) : Nat :=
  if month == 2 then (if isLeap year then 29 else 28)
  else if [4, 6, 9, 11].contains month then 30 else 31

/-- Whether the calendar has the day and the day has the time. -/
def isValid (m : Moment) : Bool :=
  1 ≤ m.year && 1 ≤ m.month && m.month ≤ 12 && 1 ≤ m.day && m.day ≤ daysIn m.year m.month
    && m.clock.all Clock.isValid

def text (m : Moment) : String :=
  let day := s!"{Clock.digits 4 m.year}-{Clock.digits 2 m.month}-{Clock.digits 2 m.day}"
  match m.clock with
  | some c => s!"{day} {c.text}"
  | none => day

def spanLiteral (minutes : Int) : String :=
  let days := Int.fdiv minutes 1440
  let seconds := 60 * Int.fmod minutes 1440
  let parts := (if days == 0 then [] else [s!"days={days}"])
    ++ (if seconds == 0 then [] else [s!"seconds={seconds}"])
  let inner := if parts.isEmpty then "0" else Text.join ", " parts
  s!"datetime.timedelta({inner})"

/-- How messages show a zone inside other data. -/
def zoneLiteral (minutes : Int) : String :=
  if minutes == 0 then "datetime.timezone.utc"
  else s!"datetime.timezone({spanLiteral minutes})"

/-- How messages show a moment inside other data. -/
def literal (m : Moment) : String :=
  let day := s!"{m.year}, {m.month}, {m.day}"
  match m.clock with
  | none => s!"datetime.date({day})"
  | some c =>
    let second := if c.second == 0 && c.micro == 0 then "" else s!", {c.second}"
    let micro := if c.micro == 0 then "" else s!", {c.micro}"
    let zone := (c.zone.map fun z => s!", tzinfo={zoneLiteral z}").getD ""
    s!"datetime.datetime({day}, {c.hour}, {c.minute}{second}{micro}{zone})"

end Moment

end TableLoom
