import Scaffold.Decimal.Text

/-!
# Dates and times

A calendar day of the proleptic Gregorian calendar, optionally with a time of day and an offset from
universal time.
-/

namespace Scaffold

open Scaffold.Decimal

/-- A time of day; the offset from universal time is in minutes. -/
structure TimeOfDay where
  hour : Nat
  minute : Nat
  second : Nat
  microsecond : Nat
  offset : Option Int
  deriving DecidableEq, Repr

/-- A day, or an instant of it. -/
structure Moment where
  year : Nat
  month : Nat
  day : Nat
  time : Option TimeOfDay
  deriving DecidableEq, Repr

namespace Moment

/-- Decimal digits padded with zeros to a width. -/
def padded (width number : Nat) : String :=
  let digits := natText number
  String.ofList (List.replicate (width - digits.length) '0' ++ digits)

/-- An offset as a sign, hours and minutes. -/
def offsetText (offset : Int) : String :=
  (if offset < 0 then "-" else "+") ++ padded 2 (offset.natAbs / 60) ++ ":"
    ++ padded 2 (offset.natAbs % 60)

/-- The written form: year first, a space before the time. -/
def text (moment : Moment) : String :=
  let day := padded 4 moment.year ++ "-" ++ padded 2 moment.month ++ "-" ++ padded 2 moment.day
  match moment.time with
  | none => day
  | some time =>
    day ++ " " ++ padded 2 time.hour ++ ":" ++ padded 2 time.minute ++ ":" ++ padded 2 time.second
      ++ (if time.microsecond == 0 then "" else "." ++ padded 6 time.microsecond)
      ++ (time.offset.map offsetText).getD ""

/-- Leap years have a day more: every fourth, of the centuries every fourth. -/
def isLeap (year : Nat) : Bool := year % 4 == 0 && (year % 100 != 0 || year % 400 == 0)

/-- The number of days of a month. -/
def daysOf (year month : Nat) : Nat :=
  if month == 2 then (if isLeap year then 29 else 28)
  else if month == 4 || month == 6 || month == 9 || month == 11 then 30 else 31

/-- Why numbers name no moment. -/
inductive Fault where
  | year (number : Nat)
  | month
  | day
  | hour
  | minute
  | second
  | offset (minutes : Int)
  deriving DecidableEq, Repr

/-- The written form of a span of minutes in days and seconds. -/
def spanText (minutes : Int) : String :=
  let seconds := minutes * 60
  let days := Int.fdiv seconds 86400
  let rest := Int.fmod seconds 86400
  let parts := (if days == 0 then [] else ["days=" ++ intText days])
    ++ (if rest == 0 then [] else ["seconds=" ++ intText rest])
  "datetime.timedelta(" ++ (if parts.isEmpty then "0" else String.intercalate ", " parts) ++ ")"

/-- The wording of a fault. -/
def Fault.message : Fault → String
  | .year number => "year " ++ intText number ++ " is out of range"
  | .month => "month must be in 1..12"
  | .day => "day is out of range for month"
  | .hour => "hour must be in 0..23"
  | .minute => "minute must be in 0..59"
  | .second => "second must be in 0..59"
  | .offset minutes =>
    "offset must be a timedelta strictly between -timedelta(hours=24) and timedelta(hours=24), not "
      ++ (if Int.fmod (minutes * 60) 86400 == 0 then
            "datetime.timedelta(days=" ++ intText (Int.fdiv (minutes * 60) 86400) ++ ")"
          else spanText minutes)

/-- The first fault of a moment's fields, if any: the offset first, then from the year down. -/
def fault? (moment : Moment) : Option Fault :=
  let offsetFault := (moment.time.bind (·.offset)).bind fun minutes =>
    if minutes.natAbs < 24 * 60 then none else some (Fault.offset minutes)
  let dayFault :=
    if moment.year < 1 ∨ 9999 < moment.year then some (Fault.year moment.year)
    else if moment.month < 1 ∨ 12 < moment.month then some .month
    else if moment.day < 1 ∨ daysOf moment.year moment.month < moment.day then some .day
    else none
  let timeFault := moment.time.bind fun time =>
    if 23 < time.hour then some Fault.hour
    else if 59 < time.minute then some .minute
    else if 59 < time.second then some .second
    else none
  offsetFault <|> dayFault <|> timeFault

/-- The constructor form of a moment, used inside written collections. -/
def inspect (moment : Moment) : String :=
  let day := intText moment.year ++ ", " ++ intText moment.month ++ ", " ++ intText moment.day
  match moment.time with
  | none => "datetime.date(" ++ day ++ ")"
  | some time =>
    let fine := time.microsecond != 0
    "datetime.datetime(" ++ day ++ ", " ++ intText time.hour ++ ", " ++ intText time.minute
      ++ (if fine || time.second != 0 then ", " ++ intText time.second else "")
      ++ (if fine then ", " ++ intText time.microsecond else "")
      ++ (match time.offset with
          | none => ""
          | some offset =>
            ", tzinfo=datetime.timezone"
              ++ (if offset == 0 then ".utc" else "(" ++ spanText offset ++ ")"))
      ++ ")"

end Moment

end Scaffold
