import OpeningHand.Text.Digit

/-!
# Dates and times

Dates of the Gregorian calendar from year 1 to 9999, times of day to the microsecond, and offsets
from universal time in minutes, less than a day either way. Two times with an offset are the same
time when they name the same instant, so a time has its instant as a number.
-/

namespace OpeningHand

/-- A day of the calendar. -/
structure Date where
  year : Nat
  month : Nat
  day : Nat
  deriving Repr, DecidableEq

/-- A time on a day, with its offset from universal time in minutes if it has one. -/
structure Moment where
  date : Date
  hour : Nat
  minute : Nat
  second : Nat
  micro : Nat
  offset : Option Int
  deriving Repr, DecidableEq

/-- Why numbers are no date or time. -/
inductive CalendarFault where
  | year (year : Nat)
  | month
  | day
  | hour
  | minute
  | second
  | offset (minutes : Int)
  deriving Repr, DecidableEq

namespace Calendar

/-- A leap year has a 29th of February. -/
def isLeap (year : Nat) : Bool :=
  year % 4 = 0 && (year % 100 ≠ 0 || year % 400 = 0)

/-- The days of a month. -/
def daysIn (year month : Nat) : Nat :=
  if month = 2 then (if isLeap year then 29 else 28)
  else if month = 4 || month = 6 || month = 9 || month = 11 then 30
  else 31

/-- The days of a year before a month. -/
def daysBefore (year : Nat) (month : Nat) : Nat :=
  (List.range (month - 1)).foldl (fun n m => n + daysIn year (m + 1)) 0

/-- The number of a day, the first day of year 1 being day 1. -/
def dayNumber (d : Date) : Nat :=
  let y := d.year - 1
  y * 365 + y / 4 - y / 100 + y / 400 + daysBefore d.year d.month + d.day

/-- The minutes of a day. -/
def minutesPerDay : Int := 24 * 60

end Calendar

/-- An offset as days and the seconds after them, which are never negative. -/
def offsetParts (minutes : Int) : Int × Int :=
  (minutes.fdiv Calendar.minutesPerDay, minutes.fmod Calendar.minutesPerDay * 60)

/-- A length of time as the call that makes it. -/
def durationCall (minutes : Int) : String :=
  let (days, seconds) := offsetParts minutes
  let parts := (if days = 0 then [] else ["days=" ++ toString days]) ++
    (if seconds = 0 then [] else ["seconds=" ++ toString seconds])
  "datetime.timedelta(" ++ (if parts.isEmpty then "0" else ", ".intercalate parts) ++ ")"

/-- The fault in words. -/
def CalendarFault.message : CalendarFault → String
  | .year y => "year " ++ toString y ++ " is out of range"
  | .month => "month must be in 1..12"
  | .day => "day is out of range for month"
  | .hour => "hour must be in 0..23"
  | .minute => "minute must be in 0..59"
  | .second => "second must be in 0..59"
  | .offset minutes =>
    "offset must be a timedelta strictly between -timedelta(hours=24) and timedelta(hours=24), not "
      ++ durationCall minutes ++ "."

/-- The date with these numbers, if there is one. -/
def Date.ofNumbers (year month day : Nat) : Except CalendarFault Date :=
  if year = 0 || 9999 < year then .error (.year year)
  else if month = 0 || 12 < month then .error .month
  else if day = 0 || Calendar.daysIn year month < day then .error .day
  else .ok ⟨year, month, day⟩

/-- The time with these numbers, if there is one; a wrong offset is found before all else. -/
def Moment.ofNumbers (year month day hour minute second micro : Nat) (offset : Option Int) :
    Except CalendarFault Moment := do
  if let some minutes := offset then
    if Calendar.minutesPerDay ≤ minutes.natAbs then
      throw (.offset minutes)
  let date ← Date.ofNumbers year month day
  if 23 < hour then throw .hour
  else if 59 < minute then throw .minute
  else if 59 < second then throw .second
  else return ⟨date, hour, minute, second, micro, offset⟩

/-- The microseconds from the first day of year 1 by the clock that shows the time. -/
def Moment.clock (m : Moment) : Int :=
  ((((Calendar.dayNumber m.date * 24 + m.hour) * 60 + m.minute) * 60 + m.second) * 1000000 +
    m.micro : Nat)

/-- The microseconds from the first day of year 1 by universal time. -/
def Moment.instant (m : Moment) (offset : Int) : Int :=
  m.clock - offset * 60 * 1000000

/-- A date as text: year, month and day with hyphens. -/
def Date.chars (d : Date) : List Char :=
  Text.paddedDigits 4 d.year ++ '-' :: Text.paddedDigits 2 d.month ++ '-' ::
    Text.paddedDigits 2 d.day

/-- An offset as text: a sign, hours and minutes. -/
def offsetChars (minutes : Int) : List Char :=
  (if minutes < 0 then '-' else '+') :: Text.paddedDigits 2 (minutes.natAbs / 60) ++ ':' ::
    Text.paddedDigits 2 (minutes.natAbs % 60)

/-- A time as text, with `sep` between the date and the time of day; microseconds only when there
are some. -/
def Moment.chars (sep : Char) (m : Moment) : List Char :=
  m.date.chars ++ sep :: Text.paddedDigits 2 m.hour ++ ':' :: Text.paddedDigits 2 m.minute ++
    ':' :: Text.paddedDigits 2 m.second ++
    (if m.micro = 0 then [] else '.' :: Text.paddedDigits 6 m.micro) ++
    (match m.offset with
     | none => []
     | some minutes => offsetChars minutes)

/-- A date as the call that makes it. -/
def Date.call (d : Date) : String :=
  "datetime.date(" ++ ", ".intercalate [toString d.year, toString d.month, toString d.day] ++ ")"

/-- A time zone as the expression that makes it. -/
def zoneCall (minutes : Int) : String :=
  if minutes = 0 then "datetime.timezone.utc"
  else "datetime.timezone(" ++ durationCall minutes ++ ")"

/-- A time as the call that makes it. -/
def Moment.call (m : Moment) : String :=
  let small := if m.micro ≠ 0 then [m.second, m.micro] else if m.second ≠ 0 then [m.second] else []
  let numbers := [m.date.year, m.date.month, m.date.day, m.hour, m.minute] ++ small
  let zone := match m.offset with
    | none => []
    | some minutes => ["tzinfo=" ++ zoneCall minutes]
  "datetime.datetime(" ++ ", ".intercalate (numbers.map toString ++ zone) ++ ")"

end OpeningHand
