import CallAtlas.Time.Instant

/-!
# Time since 1970

Clocks count from the start of the year 1970.  The calendar repeats every 400 years; counting years
from the first of March puts the leap day last.
-/

namespace CallAtlas

def daysPerEra : Nat := 146097

/-- The number of days from the first of March of the year 0 to the start of 1970. -/
def daysBefore1970 : Nat := 719468

/-- The day with the given number, where the first of January 1970 has the number 0. -/
def Date.ofNumber? (number : Nat) : Option Date :=
  let days := number + daysBefore1970
  let dayOfEra := days % daysPerEra
  let yearOfEra :=
    (dayOfEra - dayOfEra / 1460 + dayOfEra / 36524 - dayOfEra / (daysPerEra - 1)) / 365
  let dayOfYear := dayOfEra - (365 * yearOfEra + yearOfEra / 4 - yearOfEra / 100)
  let monthFromMarch := (5 * dayOfYear + 2) / 153
  let day := dayOfYear - (153 * monthFromMarch + 2) / 5 + 1
  let month := if monthFromMarch < 10 then monthFromMarch + 3 else monthFromMarch - 9
  let year := yearOfEra + days / daysPerEra * 400 + (if month ≤ 2 then 1 else 0)
  Date.of? year month day

def Instant.ofNanos? (nanos : Nat) : Option Instant :=
  let seconds := nanos / nanosPerSecond
  (Date.ofNumber? (seconds / secondsPerDay)).bind fun date =>
    Instant.of? date (seconds % secondsPerDay) (nanos % nanosPerSecond)

end CallAtlas
