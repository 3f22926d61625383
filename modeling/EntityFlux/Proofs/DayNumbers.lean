import EntityFlux.Proofs.Dates

/-!
# Counting days

The calendar by its own rule: every day is followed by the next of the month, the last of a month by
the first of the next one, the last of a year by the first of January. Counting along it from
1970-01-01, forwards and backwards, gives each date its number (`dayNumber_iff`). So the formulas
that number dates and find them again are the count and its inverse.
-/

namespace EntityFlux.Date

/-- The day after. -/
def next (d : Date) : Date :=
  if d.day < daysInMonth d.year d.month then { d with day := d.day + 1 }
  else if d.month < 12 then ⟨d.year, d.month + 1, 1⟩
  else ⟨d.year + 1, 1, 1⟩

theorem daysInMonth_pos (year month : Int) : 1 ≤ daysInMonth year month := by
  unfold daysInMonth
  split_ifs <;> decide

theorem exists_next {d : Date} (h : d.Exists) : d.next.Exists := by
  obtain ⟨h1, h2, h3, h4⟩ := h
  unfold next
  split_ifs with hday hmonth
  · have hfirst : 1 ≤ d.day + 1 := by omega
    exact ⟨h1, h2, hfirst, hday⟩
  · have hfirst : 1 ≤ d.month + 1 := by omega
    exact ⟨hfirst, hmonth, le_rfl, daysInMonth_pos _ _⟩
  · have hlast : (1 : Int) ≤ 12 := by decide
    exact ⟨le_rfl, hlast, le_rfl, daysInMonth_pos _ _⟩

/-- Within a month days are counted one by one. -/
theorem toDays_eq_first (year month day : Int) :
    (mk year month day).toDays = (mk year month 1).toDays + (day - 1) := by
  simp only [toDays]
  omega

/-- The first of March lies behind February, with its leap day if it has one. -/
theorem toDays_march (year : Int) :
    (mk year 3 1).toDays = (mk year 2 1).toDays + daysInMonth year 2 := by
  simp only [toDays, daysBefore, daysInMonth, isLeap]
  simp
  split_ifs <;> omega

theorem toDays_next_month (year : Int) {month : Int} (h1 : 1 ≤ month) (h2 : month < 12) :
    (mk year (month + 1) 1).toDays = (mk year month 1).toDays + daysInMonth year month := by
  rcases (by omega : month = 2 ∨ month ≠ 2) with rfl | hne
  · exact toDays_march year
  · interval_cases month <;> simp [toDays, daysBefore, daysInMonth] at hne ⊢ <;> omega

theorem toDays_next_year (year : Int) :
    (mk (year + 1) 1 1).toDays = (mk year 12 1).toDays + daysInMonth year 12 := by
  simp [toDays, daysBefore, daysInMonth]
  omega

theorem toDays_next {d : Date} (h : d.Exists) : d.next.toDays = d.toDays + 1 := by
  obtain ⟨year, month, day⟩ := d
  obtain ⟨h1, h2, h3, h4⟩ := h
  simp only at h1 h2 h3 h4
  have hday := toDays_eq_first year month day
  unfold next
  simp only
  split_ifs with hlast hmonth
  · rw [toDays_eq_first year month (day + 1)]
    omega
  · rw [toDays_next_month year h1 hmonth]
    omega
  · obtain rfl : month = 12 := by omega
    rw [toDays_next_year]
    omega

/-! ## One date for each number -/

/-- The day with this number is the `d`-th of the `y`-th year of a span of 400, counted from 0 and
from March. -/
structure Placed (days era y d : Int) : Prop where
  number : days = era * 146097 + daysAhead y + d - 719468
  year : 0 ≤ y ∧ y < 400
  day : 0 ≤ d ∧ d ≤ 365
  leap : d = 365 → (y + 1) % 4 = 0 ∧ ((y + 1) % 100 ≠ 0 ∨ (y + 1) % 400 = 0)

/-- A later year starts behind the last day of an earlier one. -/
theorem daysAhead_lt {y y' d : Int} (h0 : 0 ≤ y) (h : y < y') (h1 : y' < 400) (hd : d ≤ 365)
    (hleap : d = 365 → (y + 1) % 4 = 0 ∧ ((y + 1) % 100 ≠ 0 ∨ (y + 1) % 400 = 0)) :
    daysAhead y + d < daysAhead y' := by
  unfold daysAhead
  rcases (by omega : d ≤ 364 ∨ d = 365) with hshort | hlong
  · omega
  · obtain ⟨h4, h100⟩ := hleap hlong
    omega

theorem Placed.unique {days era era' y y' d d' : Int} (h : Placed days era y d)
    (h' : Placed days era' y' d') : era = era' ∧ y = y' ∧ d = d' := by
  obtain ⟨hnumber, hyear, hday, hleap⟩ := h
  obtain ⟨hnumber', hyear', hday', hleap'⟩ := h'
  have hera : era = era' := by
    unfold daysAhead at hnumber hnumber'
    omega
  rcases lt_trichotomy y y' with hlt | heq | hlt
  · have hahead := daysAhead_lt hyear.1 hlt hyear'.2 hday.2 hleap
    omega
  · subst heq
    exact ⟨hera, rfl, by omega⟩
  · have hahead := daysAhead_lt hyear'.1 hlt hyear.2 hday'.2 hleap'
    omega

/-- Where a date lies that exists. -/
theorem placed_of_exists {d : Date} (h : d.Exists) {march : Int}
    (hmarch : march = if d.month ≤ 2 then d.year - 1 else d.year) :
    Placed d.toDays (march / 400) (march % 400) (daysBefore ((d.month + 9) % 12) + d.day - 1) := by
  obtain ⟨year, month, day⟩ := d
  obtain ⟨h1, h2, h3, h4⟩ := h
  simp only at h1 h2 h3 h4 hmarch ⊢
  have hnumber : (mk year month day).toDays = march / 400 * 146097 + daysAhead (march % 400)
      + (daysBefore ((month + 9) % 12) + day - 1) - 719468 := by
    simp only [toDays, daysAhead, ← hmarch]
    omega
  -- Only in a leap year does a year that starts in March have a day 365, the last of February.
  rcases (by omega : month = 2 ∨ month ≠ 2) with rfl | hne
  · have hfebruary : daysBefore ((2 + 9) % 12) = 337 := by decide
    rw [if_pos le_rfl] at hmarch
    simp only [daysInMonth, isLeap, decide_eq_true_eq, if_true] at h4
    rw [hfebruary] at hnumber ⊢
    refine ⟨hnumber, by omega, ?_, fun hlast => ?_⟩
    · split_ifs at h4 <;> omega
    · split_ifs at h4 <;> omega
  · have hlength := daysInMonth_le year month
    have hbefore : 0 ≤ daysBefore ((month + 9) % 12) ∧ daysBefore ((month + 9) % 12) ≤ 306 := by
      unfold daysBefore
      omega
    exact ⟨hnumber, by omega, by omega, by omega⟩

/-- The month is found from the day of a year that starts in March. -/
theorem month_of_day {year month day : Int} (h1 : 1 ≤ month) (h2 : month ≤ 12) (h3 : 1 ≤ day)
    (h4 : day ≤ daysInMonth year month) :
    (5 * (daysBefore ((month + 9) % 12) + day - 1) + 2) / 153 = (month + 9) % 12 := by
  have hlength : day ≤ 31 ∧ (month = 4 ∨ month = 6 ∨ month = 9 ∨ month = 11 → day ≤ 30)
      ∧ (month = 2 → day ≤ 29) := by
    unfold daysInMonth at h4
    split_ifs at h4 <;> omega
  unfold daysBefore
  interval_cases month <;> omega

/-- A date that exists is found again by its number. -/
theorem ofDays_toDays {d : Date} (h : d.Exists) : ofDays d.toDays = d := by
  obtain ⟨march, hmarch⟩ : ∃ march, march = if d.month ≤ 2 then d.year - 1 else d.year := ⟨_, rfl⟩
  obtain ⟨era, y, n, m, hnumber, hy0, hy1, hn0, hn1, hleap, hm, hdate⟩ := ofDays_parts d.toDays
  have hplaced : Placed d.toDays era y n := ⟨hnumber, ⟨hy0, hy1⟩, ⟨hn0, hn1⟩, hleap⟩
  obtain ⟨rfl, rfl, rfl⟩ := hplaced.unique (placed_of_exists h hmarch)
  obtain ⟨year, month, day⟩ := d
  obtain ⟨h1, h2, h3, h4⟩ := h
  simp only at h1 h2 h3 h4 hmarch hm hdate
  have hmonth : m = (month + 9) % 12 := hm.trans (month_of_day h1 h2 h3 h4)
  rw [hdate, hmonth, Date.mk.injEq]
  refine ⟨?_, ?_, by omega⟩
  · split_ifs at hmarch ⊢ <;> omega
  · split_ifs <;> omega

/-! ## The count -/

/-- The number of a day, counted along the calendar from 1970-01-01 on. -/
inductive DayNumber : Date → Int → Prop where
  | epoch : DayNumber ⟨1970, 1, 1⟩ 0
  | forwards {d : Date} {n : Int} : DayNumber d n → DayNumber d.next (n + 1)
  | backwards {d : Date} {n : Int} : d.Exists → DayNumber d.next (n + 1) → DayNumber d n

theorem ofDays_succ (n : Int) : ofDays (n + 1) = (ofDays n).next := by
  have hnumber := toDays_next (exists_ofDays n)
  rw [toDays_ofDays] at hnumber
  rw [← hnumber, ofDays_toDays (exists_next (exists_ofDays n))]

theorem dayNumber_ofDays (n : Int) : DayNumber (ofDays n) n := by
  induction n using Int.induction_on with
  | zero => exact .epoch
  | succ n ih =>
    rw [ofDays_succ]
    exact ih.forwards
  | pred n ih =>
    refine .backwards (exists_ofDays _) ?_
    rw [← ofDays_succ, Int.sub_add_cancel]
    exact ih

/-- The dates that the count comes to are those that exist, each with its number. -/
theorem dayNumber_iff {d : Date} {n : Int} : DayNumber d n ↔ d.Exists ∧ n = d.toDays := by
  constructor
  · intro h
    induction h with
    | epoch => decide
    | forwards _ ih => exact ⟨exists_next ih.1, by rw [toDays_next ih.1, ih.2]⟩
    | backwards hexists _ ih =>
      refine ⟨hexists, ?_⟩
      have hnumber := ih.2
      rw [toDays_next hexists] at hnumber
      omega
  · rintro ⟨hexists, rfl⟩
    have hnumber := dayNumber_ofDays d.toDays
    rwa [ofDays_toDays hexists] at hnumber

end EntityFlux.Date
