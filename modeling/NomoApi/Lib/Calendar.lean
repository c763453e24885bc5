import Mathlib.Algebra.Group.Nat.Defs
import Mathlib.Algebra.Ring.Int.Defs

/-! # Civil time

Instants are seconds since 1970-01-01 00:00 UTC; civil dates are of the proleptic Gregorian calendar
in a time zone. A 64-bit nanosecond duration wraps around on overflow. -/

namespace NomoApi

structure Zone where
  offset : Int
  start : Int
  stop : Int

structure Location where
  lookup : Int → Zone

def Location.utc : Location := ⟨fun t => ⟨0, t, t + 1⟩⟩

/-- Days from 1970-01-01 to the civil date `y-m-d`: years count from March, in cycles of 146097
days. -/
def daysFromCivil (y m d : Int) : Int :=
  let y' := if m ≤ 2 then y - 1 else y
  let era := y' / 400
  let yoe := y' - era * 400
  let doy := (153 * (if m > 2 then m - 3 else m + 9) + 2) / 5 + d - 1
  era * 146097 + (yoe * 365 + yoe / 4 - yoe / 100 + doy) - 719468

/-- The civil date `z` days after 1970-01-01. -/
def civilFromDays (z : Int) : Int × Int × Int :=
  let z' := z + 719468
  let era := z' / 146097
  let doe := z' - era * 146097
  let yoe := (doe - doe / 1460 + doe / 36524 - doe / 146096) / 365
  let doy := doe - (365 * yoe + yoe / 4 - yoe / 100)
  let mp := (5 * doy + 2) / 153
  let m := if mp < 10 then mp + 3 else mp - 9
  let y := yoe + era * 400
  (if m ≤ 2 then y + 1 else y, m, doy - (153 * mp + 2) / 5 + 1)

namespace Location

variable (loc : Location) (t : Int)

def localSeconds : Int := t + (loc.lookup t).offset

/-- **The civil date of an instant.** -/
def civil : Int × Int × Int := civilFromDays (loc.localSeconds t / 86400)

/-- The day of the week of an instant, Sunday being `0`. -/
def weekday : Int := (loc.localSeconds t / 86400 + 4) % 7

/-- **The instant at which the local clock shows a date and a second of the day.** Near a change of
zone the offset is checked against the instant it leads to. -/
def date (year month day second : Int) : Int :=
  let y := year + (month - 1) / 12
  let m := (month - 1) % 12 + 1
  let clock := (daysFromCivil y m 1 + (day - 1)) * 86400 + second
  let z := loc.lookup clock
  if z.offset = 0 then clock
  else
    let t := clock - z.offset
    if t < z.start ∨ z.stop ≤ t then clock - (loc.lookup t).offset else t

/-- **Calendar addition**: the same local time of day, years, months and days later. -/
def addDate (t years months days : Int) : Int :=
  let (y, m, d) := loc.civil t
  loc.date (y + years) (m + months) (d + days) (loc.localSeconds t % 86400)

def midnight : Int :=
  let (y, m, d) := loc.civil t
  loc.date y m d 0

def monthStart : Int :=
  let (y, m, _) := loc.civil t
  loc.date y m 1 0

end Location

/-- The representative of `x` in `[-2^63, 2^63)`. -/
def wrap64 (x : Int) : Int := x.bmod (2 ^ 64)

theorem wrap64_of_range {x : Int} (hlow : -2 ^ 63 ≤ x) (hhigh : x < 2 ^ 63) : wrap64 x = x :=
  Int.bmod_eq_of_le (by omega) (by omega)

/-- **The instant `seconds` later**, with a duration in 64-bit nanoseconds that wraps around. -/
def addSeconds (t seconds : Int) : Int := t + wrap64 (seconds * 1000000000) / 1000000000

end NomoApi
