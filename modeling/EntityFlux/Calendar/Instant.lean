import EntityFlux.Calendar.Date
import EntityFlux.Text.Numeral

/-!
# Instants

A point in time to the nanosecond, in UTC, and its one canonical spelling. The last second of a
minute may be followed by a leap second, which is counted as nanoseconds beyond 10^9 of that second.
-/

namespace EntityFlux

namespace Instant

def secondsPerDay : Int := 86400

def leastYear : Int := -262143

def greatestYear : Int := 262142

/-- The first second of the least year. -/
def earliest : Int := (Date.mk leastYear 1 1).toDays * secondsPerDay

/-- The last second of the greatest year. -/
def latest : Int := ((Date.mk greatestYear 12 31).toDays + 1) * secondsPerDay - 1

end Instant

/-- `second` counts from 1970-01-01T00:00:00Z. -/
structure Instant where
  second : Int
  nano : Nat
  inRange : Instant.earliest ≤ second ∧ second ≤ Instant.latest
  nanoFits : nano < 1000000000 ∨ (nano < 2000000000 ∧ second % 60 = 59)
deriving DecidableEq

namespace Instant

def at? (second : Int) (nano : Nat) : Option Instant :=
  if range : earliest ≤ second ∧ second ≤ latest then
    if fits : nano < 1000000000 ∨ (nano < 2000000000 ∧ second % 60 = 59) then
      some ⟨second, nano, range, fits⟩
    else none
  else none

def yearText (year : Int) : String :=
  if 0 ≤ year ∧ year ≤ 9999 then Text.Numeral.padded 4 year.toNat
  else (if year < 0 then "-" else "+") ++ Text.Numeral.padded 4 year.natAbs

/-- The shortest of no, three, six and nine digits that loses nothing. -/
def fractionText (nano : Nat) : String :=
  if nano = 0 then ""
  else if nano % 1000000 = 0 then "." ++ Text.Numeral.padded 3 (nano / 1000000)
  else if nano % 1000 = 0 then "." ++ Text.Numeral.padded 6 (nano / 1000)
  else "." ++ Text.Numeral.padded 9 nano

def text (t : Instant) : String :=
  let two (n : Int) : String := Text.Numeral.padded 2 n.toNat
  let date := Date.ofDays (t.second / secondsPerDay)
  let inDay := t.second % secondsPerDay
  let leap : Int := if t.nano < 1000000000 then 0 else 1
  yearText date.year ++ "-" ++ two date.month ++ "-" ++ two date.day
    ++ "T" ++ two (inDay / 3600) ++ ":" ++ two (inDay / 60 % 60) ++ ":" ++ two (inDay % 60 + leap)
    ++ fractionText (t.nano % 1000000000) ++ "Z"

end Instant

end EntityFlux
