import Mathlib.Algebra.Group.Nat.Defs
import Tagwise.Js.Format

namespace Tagwise.Js

def msPerDay : Nat := 86400000

/-- Year, month and day of a day counted from 1970-01-01, in the proleptic
Gregorian calendar whose years begin in March. -/
def civil (days : Nat) : Nat × Nat × Nat :=
  let z := days + 719468
  let dayOfEra := z % 146097
  let yearOfEra := (dayOfEra - dayOfEra / 1460 + dayOfEra / 36524 - dayOfEra / 146096) / 365
  let dayOfYear := dayOfEra - (365 * yearOfEra + yearOfEra / 4 - yearOfEra / 100)
  let mp := (5 * dayOfYear + 2) / 153
  let month := if mp < 10 then mp + 3 else mp - 9
  (yearOfEra + z / 146097 * 400 + (if month ≤ 2 then 1 else 0), month,
    dayOfYear - (153 * mp + 2) / 5 + 1)

def daysOfCivil (year month day : Nat) : Nat :=
  let y := if month ≤ 2 then year - 1 else year
  let yearOfEra := y % 400
  let dayOfYear := (153 * ((month + 9) % 12) + 2) / 5 + day - 1
  y / 400 * 146097 + (yearOfEra * 365 + yearOfEra / 4 - yearOfEra / 100 + dayOfYear) - 719468

/-- `width` decimal digits, zeros in front. -/
def padded (width n : Nat) : JsString :=
  (List.range width).reverse.map (fun i => UInt16.ofNat (48 + n / 10 ^ i % 10))

/-- `Date.prototype.toISOString` on a time since 1970. -/
def toISOString (time : Nat) : JsString :=
  let (year, month, day) := civil (time / msPerDay)
  (if year ≤ 9999 then padded 4 year else js "+" ++ padded 6 year) ++ js "-" ++ padded 2 month ++
    js "-" ++ padded 2 day ++ js "T" ++ padded 2 (time / 3600000 % 24) ++ js ":" ++
    padded 2 (time / 60000 % 60) ++ js ":" ++ padded 2 (time / 1000 % 60) ++ js "." ++
    padded 3 (time % 1000) ++ js "Z"

def digitsAt (s : JsString) (start width : Nat) : Nat :=
  ((s.drop start).take width).foldl (fun n u => n * 10 + (u.toNat - 48)) 0

/-- The time that the digits of an ISO date with a four-digit year stand for. -/
def isoTime (s : JsString) : Nat :=
  daysOfCivil (digitsAt s 0 4) (digitsAt s 5 2) (digitsAt s 8 2) * msPerDay +
    digitsAt s 11 2 * 3600000 + digitsAt s 14 2 * 60000 + digitsAt s 17 2 * 1000 + digitsAt s 20 3

/-- `new Date(s).getTime()`, `none` for `NaN`: the format of `toISOString` is read
back, and what else an engine accepts is its own. -/
def dateTime (engine : JsString → Option Int) (s : JsString) : Option Int :=
  if toISOString (isoTime s) = s then some (isoTime s) else engine s

example : toISOString 1768478400000 = js "2026-01-15T12:00:00.000Z" := by decide

example : dateTime (fun _ => none) (js "2024-02-29T23:59:59.999Z") = some 1709251199999 := by
  decide

end Tagwise.Js
