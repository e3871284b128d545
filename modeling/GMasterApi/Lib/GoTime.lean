import Mathlib.Algebra.Ring.Int.Defs
import Mathlib.Algebra.Ring.Nat

/-!
# Go's `time` on Unix seconds

A moment is its Unix time in seconds; the location is a `Zone`, the offset from
UTC that holds at each moment.  Durations are 64-bit nanoseconds and wrap.
-/

namespace GoTime

/-- Seconds east of UTC at a Unix time. -/
abbrev Zone := ℤ → ℤ

def utc : Zone := fun _ => 0

structure Civil where
  year : ℤ
  month : ℤ
  day : ℤ
  deriving DecidableEq

/-- Days from 1970-01-01 to a day of the Gregorian calendar.  The year starts in
March, so that a leap day is its last. -/
def daysFromCivil (c : Civil) : ℤ :=
  let y := if c.month ≤ 2 then c.year - 1 else c.year
  let era := y / 400
  let yoe := y - era * 400
  let doy := (153 * (if 2 < c.month then c.month - 3 else c.month + 9) + 2) / 5 + c.day - 1
  era * 146097 + (yoe * 365 + yoe / 4 - yoe / 100 + doy) - 719468

def civilFromDays (days : ℤ) : Civil :=
  let z := days + 719468
  let era := z / 146097
  let doe := z - era * 146097
  let yoe := (doe - doe / 1460 + doe / 36524 - doe / 146096) / 365
  let doy := doe - (365 * yoe + yoe / 4 - yoe / 100)
  let mp := (5 * doy + 2) / 153
  let month := if mp < 10 then mp + 3 else mp - 9
  ⟨if month ≤ 2 then yoe + era * 400 + 1 else yoe + era * 400, month, doy - (153 * mp + 2) / 5 + 1⟩

/-- `Date`, `Weekday` (Sunday is 0) and the seconds since midnight of a moment. -/
def civil (zone : Zone) (t : ℤ) : Civil := civilFromDays ((t + zone t) / 86400)
def weekday (zone : Zone) (t : ℤ) : ℤ := ((t + zone t) / 86400 + 4) % 7
def clock (zone : Zone) (t : ℤ) : ℤ := (t + zone t) % 86400

/-- `time.Date`: months and days out of range carry over.  The offset is that of
the local time read as UTC, corrected once. -/
def date (zone : Zone) (year month day seconds : ℤ) : ℤ :=
  let first := daysFromCivil ⟨year + (month - 1) / 12, (month - 1) % 12 + 1, 1⟩
  let unix := (first + (day - 1)) * 86400 + seconds
  if zone unix = 0 then unix else unix - zone (unix - zone unix)

/-- `t.AddDate(years, months, days)`. -/
def addDate (zone : Zone) (t years months days : ℤ) : ℤ :=
  let c := civil zone t
  date zone (c.year + years) (c.month + months) (c.day + days) (clock zone t)

def second : ℤ := 1000000000
def hour : ℤ := 3600 * second

/-- `time.Duration(n) * unit`, a signed 64-bit product. -/
def duration (n unit : ℤ) : ℤ := (n * unit).bmod (2 ^ 64)

/-- The Unix time of `t.Add(d)`. -/
def add (t d : ℤ) : ℤ := t + d / second

end GoTime
