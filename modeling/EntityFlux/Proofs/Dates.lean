import EntityFlux.Calendar.Date
import Mathlib.Tactic.IntervalCases

/-!
# Dates and day numbers

Every day number belongs to a date that exists, and that date has this number. A day is taken apart
into a span of 400 years, the year of the span and the day of the year (`ofDays_parts`), and all
else is read off these parts. The year is found by leaving the leap days out, which never changes
the order of two days (`withoutLeapDays_mono`); so it is enough to look at the first and the last
day of each of the 400 years.
-/

namespace EntityFlux.Date

theorem daysInMonth_le (year month : Int) : daysInMonth year month ≤ 31 := by
  unfold daysInMonth
  split_ifs <;> decide

/-- The days ahead of the `y`-th year of a span of 400. -/
def daysAhead (y : Int) : Int := 365 * y + y / 4 - y / 100

/-- The days of a span without its leap days, so that every year has 365. -/
def withoutLeapDays (n : Int) : Int := n - n / 1460 + n / 36524 - n / 146096

theorem withoutLeapDays_succ (n : Int) : withoutLeapDays n ≤ withoutLeapDays (n + 1) := by
  have hn : ∀ n : Int, n / 146096 = n / 36524 / 4 := by intro n; omega
  simp only [withoutLeapDays, hn]
  omega

theorem withoutLeapDays_mono {m n : Int} (h : m ≤ n) : withoutLeapDays m ≤ withoutLeapDays n := by
  induction n, h using Int.leInduction with
  | base => exact le_rfl
  | succ n _ ih => exact ih.trans (withoutLeapDays_succ n)

theorem first_day : ∀ y : Fin 400, 365 * (y : Int) ≤ withoutLeapDays (daysAhead y) := by
  decide +kernel

theorem last_day : ∀ y : Fin 399,
    withoutLeapDays (daysAhead ((y : Int) + 1) - 1) < 365 * ((y : Int) + 1) := by
  decide +kernel

/-- Year and day of the `n`-th day of a span; only the last year has its leap day at the very end
of the span. -/
theorem year_of_day {n y : Int} (h0 : 0 ≤ n) (h1 : n < 146097) (hy : y = withoutLeapDays n / 365) :
    0 ≤ y ∧ y < 400 ∧ daysAhead y ≤ n ∧ (y < 399 → n < daysAhead (y + 1)) := by
  have hbounds : 0 ≤ y ∧ y < 400 := by
    unfold withoutLeapDays at hy
    omega
  refine ⟨hbounds.1, hbounds.2, ?_, ?_⟩
  · by_contra hlt
    have hpos : 1 ≤ y := by
      unfold daysAhead at hlt
      omega
    have hlast := last_day ⟨(y - 1).toNat, by omega⟩
    have hmono := withoutLeapDays_mono (show n ≤ daysAhead y - 1 by omega)
    have hcast : (((y - 1).toNat : Nat) : Int) + 1 = y := by omega
    simp only [hcast] at hlast
    omega
  · intro hlt
    by_contra hge
    have hfirst := first_day ⟨(y + 1).toNat, by omega⟩
    have hmono := withoutLeapDays_mono (show daysAhead (y + 1) ≤ n by omega)
    have hcast : (((y + 1).toNat : Nat) : Int) = y + 1 := by omega
    simp only [hcast] at hfirst
    omega

/-- Only a year whose February has a leap day has 366 days. -/
theorem leap_of_long {n y : Int} (hy : y < 400)
    (hn : y < 399 → n < daysAhead (y + 1)) (hd : n - daysAhead y = 365) :
    (y + 1) % 4 = 0 ∧ ((y + 1) % 100 ≠ 0 ∨ (y + 1) % 400 = 0) := by
  unfold daysAhead at *
  rcases (by omega : y = 399 ∨ y < 399) with rfl | hlt
  · decide
  · have h4 : (y + 1) / 4 = y / 4 ∨ (y + 1) % 4 = 0 := by omega
    have h100 : (y + 1) / 100 = y / 100 ∨ (y + 1) / 100 = y / 100 + 1 ∧ (y + 1) % 100 = 0 := by
      omega
    have hlong := hn hlt
    rcases h4 with h4 | h4
    · omega
    · rcases h100 with h100 | h100
      · omega
      · omega

/-- How a day is taken apart: into its span of 400 years, the year of the span and the day of the
year, both counted from March, and the month after March. -/
theorem ofDays_parts (days : Int) :
    ∃ era y d m : Int, days = era * 146097 + daysAhead y + d - 719468 ∧ 0 ≤ y ∧ y < 400 ∧ 0 ≤ d
      ∧ d ≤ 365 ∧ (d = 365 → (y + 1) % 4 = 0 ∧ ((y + 1) % 100 ≠ 0 ∨ (y + 1) % 400 = 0))
      ∧ m = (5 * d + 2) / 153
      ∧ ofDays days =
        { year := y + era * 400 + (if m < 10 then 0 else 1)
          month := if m < 10 then m + 3 else m - 9
          day := d - daysBefore m + 1 } := by
  obtain ⟨n, hn⟩ : ∃ n, n = (days + 719468) % 146097 := ⟨_, rfl⟩
  obtain ⟨y, hy⟩ : ∃ y, y = withoutLeapDays n / 365 := ⟨_, rfl⟩
  obtain ⟨h0, h1, h2, h3⟩ := year_of_day (n := n) (by omega) (by omega) hy
  have hle : n - daysAhead y ≤ 365 := by
    unfold daysAhead at *
    omega
  refine ⟨(days + 719468) / 146097, y, n - daysAhead y, _, by omega, h0, h1, by omega, hle,
    leap_of_long h1 h3, rfl, ?_⟩
  have hday : daysAhead y = 365 * y + y / 4 - y / 100 := rfl
  generalize hm : (5 * (n - daysAhead y) + 2) / 153 = m
  have hofDays : ofDays days =
      { year := y + (days + 719468) / 146097 * 400
          + (if (if m < 10 then m + 3 else m - 9) ≤ 2 then 1 else 0)
        month := if m < 10 then m + 3 else m - 9
        day := n - daysAhead y - daysBefore m + 1 } := by
    subst hm hy hn
    rfl
  rw [hofDays]
  congr 2
  split_ifs <;> omega

theorem toDays_ofDays (days : Int) : (ofDays days).toDays = days := by
  obtain ⟨era, y, d, m, hdays, h0, h1, h2, h3, -, hm, h⟩ := ofDays_parts days
  rw [h]
  unfold daysAhead at hdays
  simp only [toDays, daysBefore]
  have hyear : (if (if m < 10 then m + 3 else m - 9) ≤ 2
      then y + era * 400 + (if m < 10 then 0 else 1) - 1
      else y + era * 400 + (if m < 10 then 0 else 1)) = y + era * 400 := by
    split_ifs <;> omega
  have hmonth : ((if m < 10 then m + 3 else m - 9) + 9) % 12 = m := by
    split_ifs <;> omega
  rw [hyear, hmonth]
  omega

theorem exists_ofDays (days : Int) : (ofDays days).Exists := by
  obtain ⟨era, y, d, m, hdays, h0, h1, h2, h3, hleap, hm, h⟩ := ofDays_parts days
  rw [h]
  have hm0 : 0 ≤ m := by omega
  have hm1 : m ≤ 11 := by omega
  simp only [Exists, daysBefore]
  rcases (by omega : m = 11 ∨ m < 11) with hfeb | hlt
  · have hyear : (y + era * 400 + 1) % 4 = (y + 1) % 4
        ∧ (y + era * 400 + 1) % 100 = (y + 1) % 100
        ∧ (y + era * 400 + 1) % 400 = (y + 1) % 400 := by
      refine ⟨?_, ?_, ?_⟩ <;> omega
    obtain ⟨h4, h100, h400⟩ := hyear
    simp [hfeb, daysInMonth, isLeap, h4, h100, h400]
    split_ifs <;> omega
  · have hlength : d - (153 * m + 2) / 5 + 1
        ≤ daysInMonth (y + era * 400 + (if m < 10 then 0 else 1))
          (if m < 10 then m + 3 else m - 9) := by
      interval_cases m <;> simp [daysInMonth] <;> omega
    refine ⟨?_, ?_, by omega, hlength⟩ <;> split_ifs <;> omega

/-- A day from the first of a year on lies in that year or later. -/
theorem le_year_ofDays {days year : Int} (h : (mk year 1 1).toDays ≤ days) :
    year ≤ (ofDays days).year := by
  obtain ⟨era, y, d, m, hdays, h0, h1, h2, h3, -, hm, heq⟩ := ofDays_parts days
  rw [heq]
  simp only [toDays, daysBefore] at h ⊢
  unfold daysAhead at hdays
  split_ifs <;> omega

/-- A day up to the last of a year lies in that year or earlier. -/
theorem year_ofDays_le {days year : Int} (h : days ≤ (mk year 12 31).toDays) :
    (ofDays days).year ≤ year := by
  obtain ⟨era, y, d, m, hdays, h0, h1, h2, h3, -, hm, heq⟩ := ofDays_parts days
  rw [heq]
  simp only [toDays, daysBefore] at h ⊢
  unfold daysAhead at hdays
  split_ifs <;> omega

end EntityFlux.Date
