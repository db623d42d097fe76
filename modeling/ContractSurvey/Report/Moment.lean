/-!
# Report — Moment

A moment of the calendar and the forms in which reports write it.
-/

namespace ContractSurvey

/-- What is wrong with the numbers of a moment. -/
inductive DateError where
  | year (n : Int)
  | month
  | day
  | hour
  | minute
  | second
  | microsecond
  deriving DecidableEq, Repr

namespace DateError

def message : DateError → String
  | .year n => "year " ++ toString n ++ " is out of range"
  | .month => "month must be in 1..12"
  | .day => "day is out of range for month"
  | .hour => "hour must be in 0..23"
  | .minute => "minute must be in 0..59"
  | .second => "second must be in 0..59"
  | .microsecond => "microsecond must be in 0..999999"

end DateError

structure Date where
  year : Nat
  month : Nat
  day : Nat
  deriving DecidableEq, Repr

structure Moment extends Date where
  hour : Nat
  minute : Nat
  second : Nat
  microsecond : Nat
  deriving DecidableEq, Repr

/-- A number with zeros before it up to a width. -/
def padded (width n : Nat) : String :=
  let s := toString n
  String.ofList (List.replicate (width - s.length) '0') ++ s

namespace Date

def isLeap (year : Nat) : Bool := year % 4 = 0 && (year % 100 ≠ 0 || year % 400 = 0)

def daysIn (year month : Nat) : Nat :=
  if month = 2 then (if isLeap year then 29 else 28)
  else if month = 4 || month = 6 || month = 9 || month = 11 then 30
  else 31

/-- The date with these numbers, from year 1 to 9999. -/
def ofNumbers (year month day : Int) : Except DateError Date :=
  if year < 1 ∨ 9999 < year then .error (.year year)
  else if month < 1 ∨ 12 < month then .error .month
  else if day < 1 ∨ daysIn year.toNat month.toNat < day then .error .day
  else .ok ⟨year.toNat, month.toNat, day.toNat⟩

/-- Year, month and day; the year is not widened. -/
def dashed (d : Date) : String :=
  toString d.year ++ "-" ++ padded 2 d.month ++ "-" ++ padded 2 d.day

end Date

namespace Moment

/-- The moment with these numbers: the date first, then the hour and what is finer. -/
def ofNumbers (year month day hour minute second microsecond : Int) :
    Except DateError Moment := do
  let date ← Date.ofNumbers year month day
  if hour < 0 ∨ 23 < hour then .error .hour
  else if minute < 0 ∨ 59 < minute then .error .minute
  else if second < 0 ∨ 59 < second then .error .second
  else if microsecond < 0 ∨ 999999 < microsecond then .error .microsecond
  else .ok ⟨date, hour.toNat, minute.toNat, second.toNat, microsecond.toNat⟩

def clock (m : Moment) : String :=
  padded 2 m.hour ++ ":" ++ padded 2 m.minute ++ ":" ++ padded 2 m.second

/-- Date and time for a reader. -/
def readable (m : Moment) : String := m.toDate.dashed ++ " " ++ m.clock

/-- Date and time in universal time for a machine; a whole second has no fraction. -/
def universal (m : Moment) : String :=
  padded 4 m.year ++ "-" ++ padded 2 m.month ++ "-" ++ padded 2 m.day ++ "T" ++ m.clock ++
    (if m.microsecond = 0 then "" else "." ++ padded 6 m.microsecond) ++ "+00:00"

end Moment

end ContractSurvey
