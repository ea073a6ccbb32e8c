import Stepwise.Text.Digits

/-!
# Dates and times

Days of the Gregorian calendar from year 1 to year 9999, times of day with microseconds, and the
offset of a time from universal time. `check` names the first part of a date and time that is out of
range; `instant` places a time on one line, so that equal instants at different offsets are equal.
-/

namespace Stepwise

/-- A day of the calendar. -/
structure Date where
  year : Nat
  month : Nat
  day : Nat
  deriving DecidableEq, Hashable, Repr

/-- A day, a time of that day and, if it is known, the offset from universal time in minutes. -/
structure DateTime where
  date : Date
  hour : Nat
  minute : Nat
  second : Nat
  microsecond : Nat
  offset : Option Int
  deriving DecidableEq, Hashable, Repr

/-- A part of a date or time that is out of range. -/
inductive Calendar.Fault where
  | year (n : Nat)
  | month
  | day
  | hour
  | minute
  | second
  | offset (minutes : Int)
  deriving DecidableEq, Repr

namespace Calendar

/-- Whether a year has a day more than the common ones. -/
def isLeap (year : Nat) : Bool := year % 4 == 0 && (year % 100 != 0 || year % 400 == 0)

/-- The number of days of a month. -/
def daysIn (year month : Nat) : Nat :=
  if month = 2 then (if isLeap year then 29 else 28)
  else if month = 4 ∨ month = 6 ∨ month = 9 ∨ month = 11 then 30 else 31

/-- The first part of a day that is out of range. -/
def checkDate (d : Date) : Except Fault Unit := do
  if d.year < 1 ∨ 9999 < d.year then throw (.year d.year)
  if d.month < 1 ∨ 12 < d.month then throw .month
  if d.day < 1 ∨ daysIn d.year d.month < d.day then throw .day

/-- The first part of a day and time that is out of range; the offset must be less than a day. -/
def check (t : DateTime) : Except Fault Unit := do
  match t.offset with
  | some m => if m ≤ -1440 ∨ 1440 ≤ m then throw (.offset m)
  | none => pure ()
  checkDate t.date
  if 23 < t.hour then throw .hour
  if 59 < t.minute then throw .minute
  if 59 < t.second then throw .second

/-- The days from the start of the calendar to a day. -/
def dayNumber (d : Date) : Nat :=
  let y := d.year - 1
  365 * y + y / 4 - y / 100 + y / 400 +
    ((List.range (d.month - 1)).map fun m => daysIn d.year (m + 1)).foldl (· + ·) 0 + d.day

/-- The microseconds from the start of the calendar to a time, less its offset. -/
def instant (t : DateTime) : Int :=
  let seconds : Nat := (dayNumber t.date * 24 + t.hour) * 3600 + t.minute * 60 + t.second
  ((seconds : Int) - t.offset.getD 0 * 60) * 1000000 + t.microsecond

open Text (decimal)

/-- Numbers in base ten with commas between them. -/
def commaSeparated (ns : List Nat) : String :=
  ", ".intercalate (ns.map fun n => String.ofList (decimal n))

/-- A span of minutes, as days and the seconds left. -/
def showSpan (minutes : Int) : String :=
  let days := minutes.fdiv 1440
  let seconds := minutes.fmod 1440 * 60
  let parts := (if days = 0 then [] else ["days=" ++ toString days]) ++
    (if seconds = 0 then [] else ["seconds=" ++ toString seconds])
  "datetime.timedelta(" ++ (if parts.isEmpty then "0" else ", ".intercalate parts) ++ ")"

/-- A zone with a fixed offset; the zone without offset is universal time. -/
def showZone (minutes : Int) : String :=
  if minutes = 0 then "datetime.timezone.utc" else "datetime.timezone(" ++ showSpan minutes ++ ")"

/-- A day as it is shown in messages. -/
def showDate (d : Date) : String :=
  "datetime.date(" ++ commaSeparated [d.year, d.month, d.day] ++ ")"

/-- A time as it is shown in messages: seconds and microseconds are left out from the end while they
are zero. -/
def showDateTime (t : DateTime) : String :=
  let tail :=
    if t.microsecond ≠ 0 then [t.second, t.microsecond] else if t.second ≠ 0 then [t.second] else []
  "datetime.datetime(" ++
    commaSeparated ([t.date.year, t.date.month, t.date.day, t.hour, t.minute] ++ tail) ++
    (match t.offset with
      | some m => ", tzinfo=" ++ showZone m
      | none => "") ++ ")"

/-- The text of a fault. -/
def Fault.message : Fault → String
  | .year n => "year " ++ toString n ++ " is out of range"
  | .month => "month must be in 1..12"
  | .day => "day is out of range for month"
  | .hour => "hour must be in 0..23"
  | .minute => "minute must be in 0..59"
  | .second => "second must be in 0..59"
  | .offset m =>
    "offset must be a timedelta strictly between -timedelta(hours=24) and timedelta(hours=24), not "
      ++ showSpan m ++ "."

end Calendar

end Stepwise
