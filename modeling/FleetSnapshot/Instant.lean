import FleetSnapshot.Text.Digits
/-!
Moments in universal time, and how they are written: a date of the Gregorian calendar, the time of
day and a fraction of three, six or nine digits where there is one. A leap second is the second
before it with a thousand million nanoseconds more.
-/

namespace FleetSnapshot

structure Instant where
  /-- Seconds since the beginning of 1970. -/
  seconds : Int
  nanos : Nat
  deriving DecidableEq, Repr, Inhabited

namespace Instant

def isLeap (year : Int) : Bool := year % 4 = 0 && (year % 100 ≠ 0 || year % 400 = 0)

def daysInMonth (year : Int) (month : Nat) : Nat :=
  if month = 2 then if isLeap year then 29 else 28
  else if month = 4 || month = 6 || month = 9 || month = 11 then 30
  else 31

/-- Days from the beginning of 1970 to a date. Years are counted from March here, so that the day
added by a leap year comes last. -/
def daysTo (year : Int) (month day : Nat) : Int :=
  let y := if month ≤ 2 then year - 1 else year
  let era := y / 400
  let yearOfEra := y - era * 400
  let monthOfYear : Int := if month > 2 then month - 3 else month + 9
  let dayOfYear := (153 * monthOfYear + 2) / 5 + day - 1
  era * 146097 + yearOfEra * 365 + yearOfEra / 4 - yearOfEra / 100 + dayOfYear - 719468

/-- The date so many days from the beginning of 1970. -/
def dateAt (days : Int) : Int × Int × Int :=
  let z := days + 719468
  let era := z / 146097
  let dayOfEra := z - era * 146097
  let yearOfEra := (dayOfEra - dayOfEra / 1460 + dayOfEra / 36524 - dayOfEra / 146096) / 365
  let dayOfYear := dayOfEra - (365 * yearOfEra + yearOfEra / 4 - yearOfEra / 100)
  let monthOfYear := (5 * dayOfYear + 2) / 153
  let day := dayOfYear - (153 * monthOfYear + 2) / 5 + 1
  let month := if monthOfYear < 10 then monthOfYear + 3 else monthOfYear - 9
  (yearOfEra + era * 400 + (if month ≤ 2 then 1 else 0), month, day)

def padded (width n : Nat) : String :=
  let ds := Nat.toDigits 10 n
  String.ofList (List.replicate (width - ds.length) '0' ++ ds)

def yearText (year : Int) : String :=
  if 0 ≤ year && year ≤ 9999 then padded 4 year.toNat
  else (if year < 0 then "-" else "+") ++ padded 4 year.natAbs

def fractionText (nanos : Nat) : String :=
  if nanos = 0 then ""
  else if nanos % 1000000 = 0 then "." ++ padded 3 (nanos / 1000000)
  else if nanos % 1000 = 0 then "." ++ padded 6 (nanos / 1000)
  else "." ++ padded 9 nanos

/-- The date and the time of day, without a zone. -/
def plainText (t : Instant) : String :=
  let days := t.seconds / 86400
  let second := (t.seconds - days * 86400).toNat
  let (year, month, day) := dateAt days
  let leap := 1000000000 ≤ t.nanos
  yearText year ++ "-" ++ padded 2 month.toNat ++ "-" ++ padded 2 day.toNat ++ "T" ++
    padded 2 (second / 3600) ++ ":" ++ padded 2 (second / 60 % 60) ++ ":" ++
    padded 2 (second % 60 + if leap then 1 else 0) ++
    fractionText (if leap then t.nanos - 1000000000 else t.nanos)

def toText (t : Instant) : String := t.plainText ++ "Z"

/-- As the audit store keeps it. -/
def columnText (t : Instant) : String := t.plainText ++ "+00:00"

def inRange (year : Int) : Bool := -262143 ≤ year && year ≤ 262142

/-- The moment of a date and time that a clock `offset` seconds ahead of universal time shows. -/
def ofCivil? (year : Int) (month day hour minute second nanos : Nat) (offset : Int) :
    Option Instant :=
  if inRange year && 1 ≤ month && month ≤ 12 && 1 ≤ day && day ≤ daysInMonth year month &&
      hour ≤ 23 && minute ≤ 59 && second ≤ 60 then
    let t : Instant := {
      seconds := daysTo year month day * 86400 + hour * 3600 + minute * 60 + min second 59 - offset
      nanos := if second = 60 then nanos + 1000000000 else nanos }
    if inRange (dateAt (t.seconds / 86400)).1 then some t else none
  else none

end Instant

end FleetSnapshot
