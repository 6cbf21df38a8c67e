/-!
# TemplateAudit.Data.Calendar

Dates and points in time as they can be written in a settings file. `Date.make` and
`Moment.make` check the fields in a fixed order, year, month, day, hour, minute, second, and
report the first that is out of range. Two points in time with offsets are the same when they
fall together in universal time; without offsets, when their fields agree.
-/

namespace TemplateAudit.Data

/-- A day of the calendar. -/
structure Date where
  year : Nat
  month : Nat
  day : Nat
  deriving DecidableEq, Repr

/-- A point in time; `offset` is the distance to universal time in minutes, if one is given. -/
structure Moment where
  date : Date
  hour : Nat
  minute : Nat
  second : Nat
  micro : Nat
  offset : Option Int
  deriving DecidableEq, Repr

/-- Why fields make no date or no point in time. -/
inductive CalendarFault
  | year (n : Nat)
  | month
  | day
  | hour
  | minute
  | second
  | offset (minutes : Int)
  deriving DecidableEq, Repr

/-- A length of time in minutes, as days and seconds, the seconds never negative. -/
def durationText (minutes : Int) : String :=
  let days := minutes.fdiv 1440
  let seconds := (minutes.fmod 1440) * 60
  let fields :=
    (if days == 0 then [] else [s!"days={days}"]) ++
      (if seconds == 0 then [] else [s!"seconds={seconds}"])
  let inner := if fields.isEmpty then "0" else ", ".intercalate fields
  s!"datetime.timedelta({inner})"

/-- The wording of a fault. -/
def CalendarFault.message : CalendarFault → String
  | .year n => s!"year {n} is out of range"
  | .month => "month must be in 1..12"
  | .day => "day is out of range for month"
  | .hour => "hour must be in 0..23"
  | .minute => "minute must be in 0..59"
  | .second => "second must be in 0..59"
  | .offset minutes =>
    "offset must be a timedelta strictly between -timedelta(hours=24) and " ++
      s!"timedelta(hours=24), not {durationText minutes}."

/-- A year with a 29th of February. -/
def isLeapYear (year : Nat) : Bool :=
  year % 4 == 0 && (year % 100 != 0 || year % 400 == 0)

/-- The number of days of a month. -/
def daysInMonth (year month : Nat) : Nat :=
  if month == 2 then (if isLeapYear year then 29 else 28)
  else if month == 4 || month == 6 || month == 9 || month == 11 then 30
  else 31

/-- A date, if its fields are in range. -/
def Date.make (year month day : Nat) : Except CalendarFault Date :=
  if year < 1 || 9999 < year then .error (.year year)
  else if month < 1 || 12 < month then .error .month
  else if day < 1 || daysInMonth year month < day then .error .day
  else .ok { year, month, day }

/-- A point in time, if its fields are in range; the offset is looked at first. -/
def Moment.make (year month day hour minute second micro : Nat) (offset : Option Int) :
    Except CalendarFault Moment := do
  if let some minutes := offset then
    if minutes ≤ -1440 || 1440 ≤ minutes then throw (.offset minutes)
  let date ← Date.make year month day
  if 23 < hour then throw .hour
  if 59 < minute then throw .minute
  if 59 < second then throw .second
  return { date, hour, minute, second, micro, offset }

/-! ## Equality -/

/-- The number of a day, counted from the first of the first year. -/
def Date.number (d : Date) : Nat :=
  let years := d.year - 1
  let months := (List.range (d.month - 1)).map fun m => daysInMonth d.year (m + 1)
  years * 365 + years / 4 - years / 100 + years / 400 + months.foldl Nat.add 0 + (d.day - 1)

/-- The microseconds from the start of the first year on the clock of a point in time. -/
def Moment.clockMicros (m : Moment) : Nat :=
  (((m.date.number * 24 + m.hour) * 60 + m.minute) * 60 + m.second) * 1000000 + m.micro

/-- The microseconds from the start of the first year in universal time, for a clock that is
`offset` minutes ahead of it. -/
def Moment.instant (m : Moment) (offset : Int) : Int :=
  Int.ofNat m.clockMicros - offset * 60000000

/-- Whether two points in time are the same. One with an offset is never the same as one
without. -/
def Moment.same (a b : Moment) : Bool :=
  match a.offset, b.offset with
  | some x, some y => a.instant x == b.instant y
  | none, none => a == b
  | _, _ => false

/-! ## Text -/

/-- A number on a fixed number of places, filled up with zeros. -/
def padded (width n : Nat) : String :=
  let ds := Nat.toDigits 10 n
  String.ofList (List.replicate (width - ds.length) '0' ++ ds)

/-- A date, year first. -/
def Date.text (d : Date) : String :=
  s!"{padded 4 d.year}-{padded 2 d.month}-{padded 2 d.day}"

/-- A distance to universal time as hours and minutes with a sign. -/
def offsetText (minutes : Int) : String :=
  let n := minutes.natAbs
  let sign := if minutes < 0 then "-" else "+"
  s!"{sign}{padded 2 (n / 60)}:{padded 2 (n % 60)}"

/-- A point in time: the date, a blank, the time of day, the offset. -/
def Moment.text (m : Moment) : String :=
  let micro := if m.micro == 0 then "" else s!".{padded 6 m.micro}"
  let offset := match m.offset with
    | none => ""
    | some minutes => offsetText minutes
  s!"{m.date.text} {padded 2 m.hour}:{padded 2 m.minute}:{padded 2 m.second}{micro}{offset}"

/-- A date as it is shown among other values. -/
def Date.shown (d : Date) : String :=
  s!"datetime.date({d.year}, {d.month}, {d.day})"

/-- A point in time as it is shown among other values: seconds and fractions that are zero at
the end are left out. -/
def Moment.shown (m : Moment) : String :=
  let tail :=
    if m.micro != 0 then [m.second, m.micro]
    else if m.second != 0 then [m.second]
    else []
  let fields := [m.date.year, m.date.month, m.date.day, m.hour, m.minute] ++ tail
  let zone := match m.offset with
    | none => []
    | some minutes =>
      if minutes == 0 then ["tzinfo=datetime.timezone.utc"]
      else [s!"tzinfo=datetime.timezone({durationText minutes})"]
  let inner := ", ".intercalate (fields.map toString ++ zone)
  s!"datetime.datetime({inner})"

end TemplateAudit.Data
