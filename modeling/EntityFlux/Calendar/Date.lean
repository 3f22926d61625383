/-!
# Calendar dates

Dates of the Gregorian calendar, carried backwards and forwards without end, and their numbering by
days from 1970-01-01. A year is counted from March, so that the leap day is its last, and years are
grouped into spans of 400, which all have the same number of days.
-/

namespace EntityFlux

structure Date where
  year : Int
  month : Int
  day : Int
deriving DecidableEq, Repr

namespace Date

def isLeap (year : Int) : Bool :=
  year % 4 = 0 ∧ (year % 100 ≠ 0 ∨ year % 400 = 0)

def daysInMonth (year month : Int) : Int :=
  if month = 2 then (if isLeap year then 29 else 28)
  else if month = 4 ∨ month = 6 ∨ month = 9 ∨ month = 11 then 30
  else 31

def Exists (d : Date) : Prop :=
  1 ≤ d.month ∧ d.month ≤ 12 ∧ 1 ≤ d.day ∧ d.day ≤ daysInMonth d.year d.month

instance (d : Date) : Decidable d.Exists := inferInstanceAs (Decidable (_ ∧ _ ∧ _ ∧ _))

/-- Days before the month that is the `m`-th after March. -/
def daysBefore (m : Int) : Int := (153 * m + 2) / 5

/-- Days from 1970-01-01. -/
def toDays (d : Date) : Int :=
  let year := if d.month ≤ 2 then d.year - 1 else d.year
  let month := (d.month + 9) % 12
  let era := year / 400
  let inEra := year % 400
  let day := daysBefore month + d.day - 1
  era * 146097 + (inEra * 365 + inEra / 4 - inEra / 100 + day) - 719468

def ofDays (days : Int) : Date :=
  let shifted := days + 719468
  let era := shifted / 146097
  let inEra := shifted % 146097
  let year := (inEra - inEra / 1460 + inEra / 36524 - inEra / 146096) / 365
  let day := inEra - (365 * year + year / 4 - year / 100)
  let month := (5 * day + 2) / 153
  let calendarMonth := if month < 10 then month + 3 else month - 9
  { year := year + era * 400 + (if calendarMonth ≤ 2 then 1 else 0)
    month := calendarMonth
    day := day - daysBefore month + 1 }

end Date

end EntityFlux
