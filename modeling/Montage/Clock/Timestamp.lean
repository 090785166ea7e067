import Montage.Number.Binary64

/-! # Timestamps

The clock counts seconds from the first instant of the year 2024, and a `Timestamp` is that
count in whole microseconds.  Its text is the calendar date and the time of day in universal
time; the fraction of a second has six places or is left out if it is zero.

`civil` turns a count of days into a date of the Gregorian calendar.  It counts years from
March on, so that the day that not every year has comes last.  The calendar has the years 1 to
9999; a count of seconds that leads out of them, or is no number, has no date
(`Timestamp.check`).
-/
namespace Montage

/-- Microseconds since the first instant of 2024. -/
structure Timestamp where
  microseconds : Int
  deriving DecidableEq, Repr

/-- A date of the calendar. -/
structure Date where
  year : Int
  month : Nat
  day : Nat
  deriving DecidableEq, Repr

namespace Timestamp

/-- The whole number nearest to a rational one; a half goes to the even neighbour. -/
def nearestWhole (q : Rat) : Int :=
  let n : Int := Number.halfEven q.num.natAbs q.den
  if q.num < 0 then -n else n

/-- The timestamp nearest to a count of seconds; the fraction is taken in microseconds first. -/
def ofSeconds (r : Rounding) (seconds : Number) : Timestamp :=
  let whole := Number.truncate seconds.rat
  let fraction := Number.mul r (.finite (seconds.rat - whole)) (.finite 1000000)
  ⟨whole * 1000000 + nearestWhole fraction.rat⟩

/-- Why a count of seconds has no date. -/
inductive ClockFault where
  | infinite
  | notANumber
  /-- The days do not fit into a machine word. -/
  | tooLarge
  /-- More days than a span of time may have. -/
  | tooLong (days : Int)
  /-- The day lies outside the calendar. -/
  | outside
  deriving DecidableEq, Repr

def ClockFault.message : ClockFault → String
  | infinite => "cannot convert float infinity to integer"
  | notANumber => "cannot convert float NaN to integer"
  | tooLarge => "Python int too large to convert to C int"
  | tooLong days => "days=" ++ toString days ++ "; must have magnitude <= 999999999"
  | outside => "date value out of range"

/-- Most days of a span of time. -/
def longestSpan : Nat := 999999999

/-- Days from the first day of the calendar to the first of January 2024. -/
def daysBefore : Int := 738885

/-- Days from the first of January 2024 to the end of the calendar. -/
def daysAfter : Int := 2913174

/-- Whether a day has a date, counted from the first of January 2024. -/
def checkDay (days : Int) : Except ClockFault Unit :=
  if 2147483647 < days ∨ days < -2147483648 then .error .tooLarge
  else if longestSpan < days.natAbs then .error (.tooLong days)
  else if days < -daysBefore ∨ daysAfter ≤ days then .error .outside
  else .ok ()

/-- Whether a count of seconds has a date. -/
def check (r : Rounding) (seconds : Number) : Except ClockFault Unit :=
  match seconds with
  | .infinite _ => .error .infinite
  | .nan => .error .notANumber
  | x => checkDay ((ofSeconds r x).microseconds.fdiv 86400000000)

/-- Days from the first of March of the year zero to the first of January 2024. -/
def epochDay : Int := 739191

/-- Days of four hundred years. -/
def daysOfEra : Int := 146097

/-- The date that lies so many days after the first of January 2024. -/
def civil (days : Int) : Date :=
  let z := days + epochDay
  let era := z.fdiv daysOfEra
  let d := (z.fmod daysOfEra).toNat
  let y := (d - d / 1460 + d / 36524 - d / 146096) / 365
  let dayOfYear := d - (365 * y + y / 4 - y / 100)
  let m := (5 * dayOfYear + 2) / 153
  let month := if m < 10 then m + 3 else m - 9
  { year := y + era * 400 + (if month ≤ 2 then 1 else 0)
    month
    day := dayOfYear - (153 * m + 2) / 5 + 1 }

/-- A number with at least so many digits. -/
def padded (width n : Nat) : String :=
  let digits := toString n
  String.ofList (List.replicate (width - digits.length) '0') ++ digits

/-- Date and time of day, and what stands for universal time. -/
def text (zone : String) (t : Timestamp) : String :=
  let seconds := t.microseconds.fdiv 1000000
  let fraction := (t.microseconds.fmod 1000000).toNat
  let date := civil (seconds.fdiv 86400)
  let time := (seconds.fmod 86400).toNat
  padded 4 date.year.toNat ++ "-" ++ padded 2 date.month ++ "-" ++ padded 2 date.day ++ "T" ++
    padded 2 (time / 3600) ++ ":" ++ padded 2 (time / 60 % 60) ++ ":" ++ padded 2 (time % 60) ++
    (if fraction = 0 then "" else "." ++ padded 6 fraction) ++ zone

end Timestamp
end Montage
