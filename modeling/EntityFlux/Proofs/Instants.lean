import EntityFlux.Calendar.Reader
import EntityFlux.Proofs.Dates
import EntityFlux.Proofs.Numerals

/-!
# Reading instants back

The text of an instant is one of the spellings of a date-time, and what it spells is the instant
itself, a leap second included. Each reader takes off exactly what was written for it.
-/

namespace EntityFlux.Instant

open EntityFlux.Text Reader

theorem not_isBlank_of_isDigit {c : Char} (h : c.isDigit) : isBlank c = false := by
  have hrange : 48 ≤ c.toNat ∧ c.toNat ≤ 57 := by
    simpa [Char.isDigit, UInt32.le_iff_toNat_le] using h
  have hranges : ∀ r ∈ blankRanges, r.2 < 48 ∨ 57 < r.1 := by decide
  rw [isBlank, Bool.eq_false_iff, Ne, CodePoints.has_iff]
  rintro ⟨r, hr, hle, hge⟩
  have hr := hranges r hr
  omega

theorem dropBlanks_digits {digits : List Char} (hne : digits ≠ [])
    (hdigits : ∀ c ∈ digits, c.isDigit) (rest : List Char) :
    dropBlanks (digits ++ rest) = digits ++ rest := by
  cases digits with
  | nil => exact absurd rfl hne
  | cons c digits =>
    have hc := not_isBlank_of_isDigit (hdigits c (by simp))
    simp [dropBlanks, hc]

theorem number?_digits {digits : List Char} (hne : digits ≠ [])
    (hdigits : ∀ c ∈ digits, c.isDigit) (rest : List Char) :
    number? digits.length (digits ++ rest) = some ((Numeral.value digits : Int), rest) := by
  unfold number?
  rw [dropBlanks_digits hne hdigits, Numeral.spanUpTo_digits hdigits]
  cases digits with
  | nil => exact absurd rfl hne
  | cons c digits => rfl

theorem number?_padded {width n : Nat} (hwidth : 0 < width) (h : n < 10 ^ width)
    (rest : List Char) :
    number? width ((Numeral.padded width n).toList ++ rest) = some ((n : Int), rest) := by
  have hne : (Numeral.padded width n).toList ≠ [] := Numeral.padded_ne_nil
  have hread := number?_digits hne (fun c hc => Numeral.isDigit_of_mem_padded hc) rest
  rwa [Numeral.length_padded hwidth h, Numeral.value_padded] at hread

/-- The two digits of a month, a day, an hour and so on. -/
theorem number?_two {n : Int} (h : 0 ≤ n ∧ n < 100) (rest : List Char) :
    number? 2 ((Numeral.padded 2 n.toNat).toList ++ rest) = some (n, rest) := by
  rw [number?_padded (by decide) (by omega), Int.toNat_of_nonneg h.1]

theorem mark?_self {c : Char} (h : isBlank c = false) (rest : List Char) :
    mark? c (c :: rest) = some rest := by
  simp [mark?, dropBlanks, h]

/-- Any year can be read back from in front of a dash. -/
theorem year?_yearText (year : Int) (rest : List Char) :
    year? ((yearText year).toList ++ '-' :: rest) = some (year, '-' :: rest) := by
  have hsigned : ∀ (sign : Int) (n : Nat),
      year?.signed sign ((Numeral.padded 4 n).toList ++ '-' :: rest)
        = some (sign * n, '-' :: rest) := by
    intro sign n
    unfold year?.signed
    rw [Numeral.span_digits (fun c hc => Numeral.isDigit_of_mem_padded hc)
      (Numeral.startsApart_cons (by decide) rest)]
    split
    · rename_i heq
      exact absurd (Prod.ext_iff.1 heq).1 Numeral.padded_ne_nil
    · rename_i heq
      simp only [Prod.mk.injEq] at heq
      obtain ⟨rfl, rfl⟩ := heq
      rw [Numeral.value_padded]
  unfold yearText
  split
  · rename_i hyear
    have hdigit : ∀ c ∈ (Numeral.padded 4 year.toNat).toList, c.isDigit :=
      fun c hc => Numeral.isDigit_of_mem_padded hc
    have hread : number? 4 ((Numeral.padded 4 year.toNat).toList ++ '-' :: rest)
        = some ((year.toNat : Int), '-' :: rest) := number?_padded (by decide) (by omega) _
    unfold year?
    rw [dropBlanks_digits Numeral.padded_ne_nil hdigit]
    split
    · rename_i heq
      exact absurd (Numeral.isDigit_front hdigit Numeral.padded_ne_nil heq) (by decide)
    · rename_i heq
      exact absurd (Numeral.isDigit_front hdigit Numeral.padded_ne_nil heq) (by decide)
    · rw [hread, Int.toNat_of_nonneg hyear.1]
  · rename_i hyear
    split
    · rename_i hneg
      have hread := hsigned (-1) year.natAbs
      rw [show (-1 : Int) * (year.natAbs : Int) = year by omega] at hread
      simpa [year?, dropBlanks, show isBlank '-' = false by decide] using hread
    · rename_i hneg
      have hread := hsigned 1 year.natAbs
      rw [show (1 : Int) * (year.natAbs : Int) = year by omega] at hread
      simpa [year?, dropBlanks, show isBlank '+' = false by decide] using hread

theorem fraction?_point {width n : Nat} (h9 : width ≤ 9) (hwidth : 0 < width)
    (h : n < 10 ^ width) {rest : List Char} (hrest : Numeral.StartsApart rest) :
    fraction? (("." ++ Numeral.padded width n).toList ++ rest)
      = some (n * 10 ^ (9 - width), rest) := by
  have hpoint : ("." ++ Numeral.padded width n).toList ++ rest
      = '.' :: ((Numeral.padded width n).toList ++ rest) := by simp
  have hlength := Numeral.length_padded hwidth h
  rw [hpoint]
  unfold fraction?
  simp only
  rw [Numeral.span_digits (fun c hc => Numeral.isDigit_of_mem_padded hc) hrest]
  split
  · rename_i heq
    exact absurd (Prod.ext_iff.1 heq).1 Numeral.padded_ne_nil
  · rename_i heq
    simp only [Prod.mk.injEq] at heq
    obtain ⟨rfl, rfl⟩ := heq
    rw [List.take_of_length_le (by omega), Numeral.value_padded, hlength]
    rfl

/-- A fraction of a second can be read back from in front of the zone. -/
theorem fraction?_fractionText {nano : Nat} (h : nano < 1000000000) {rest : List Char} :
    fraction? ((fractionText nano).toList ++ 'Z' :: rest) = some (nano, 'Z' :: rest) := by
  have hrest : Numeral.StartsApart ('Z' :: rest) := Numeral.startsApart_cons (by decide) rest
  unfold fractionText
  split_ifs with h0 h3 h6
  · rw [h0]
    rfl
  · rw [fraction?_point (by decide) (by decide) (by omega) hrest]
    congr 2
    omega
  · rw [fraction?_point (by decide) (by decide) (by omega) hrest]
    congr 2
    omega
  · rw [fraction?_point (by decide) (by decide) h hrest]
    simp

theorem at?_self (t : Instant) : at? t.second t.nano = some t := by
  simp [at?, t.inRange, t.nanoFits]

/-- The date of an instant lies in the years that an instant can have. -/
theorem year_bounds (t : Instant) :
    leastYear ≤ (Date.ofDays (t.second / secondsPerDay)).year
      ∧ (Date.ofDays (t.second / secondsPerDay)).year ≤ greatestYear := by
  have hrange := t.inRange
  unfold earliest latest secondsPerDay at hrange
  unfold secondsPerDay
  exact ⟨Date.le_year_ofDays (by omega), Date.year_ofDays_le (by omega)⟩

/-- A date-time in UTC that is written with all its digits, read part by part. -/
theorem read?_parts (year : Int) {month day hour minute second : Int} {nano : Nat}
    (hmonth : 0 ≤ month ∧ month < 100) (hday : 0 ≤ day ∧ day < 100) (hhour : 0 ≤ hour ∧ hour < 100)
    (hminute : 0 ≤ minute ∧ minute < 100) (hsecond : 0 ≤ second ∧ second < 100)
    (hnano : nano < 1000000000) :
    read? ((yearText year).toList ++ '-' :: ((Numeral.padded 2 month.toNat).toList
      ++ '-' :: ((Numeral.padded 2 day.toNat).toList
      ++ 'T' :: ((Numeral.padded 2 hour.toNat).toList
      ++ ':' :: ((Numeral.padded 2 minute.toNat).toList
      ++ ':' :: ((Numeral.padded 2 second.toNat).toList
      ++ ((fractionText nano).toList ++ ['Z'])))))))
    = if (leastYear ≤ year ∧ year ≤ greatestYear ∧ (Date.mk year month day).Exists)
        ∧ hour ≤ 23 ∧ minute ≤ 59 ∧ second ≤ 60 then
        at? ((Date.mk year month day).toDays * secondsPerDay
          + (hour * 3600 + minute * 60 + (if second = 60 then 59 else second)))
          (nano + if second = 60 then 1000000000 else 0)
      else none := by
  have hdash : ∀ rest, mark? '-' ('-' :: rest) = some rest := mark?_self (by decide)
  have hcolon : ∀ rest, mark? ':' (':' :: rest) = some rest := mark?_self (by decide)
  have hzone : zone? ['Z'] = some (0, []) := by rfl
  -- Each part is taken off before the next is looked at: rewriting all at once goes through what
  -- is left of the reader again and again.
  unfold read?
  rw [year?_yearText, Option.bind_eq_bind, Option.bind_some]
  dsimp -zeta only
  rw [hdash, Option.bind_eq_bind, Option.bind_some, number?_two hmonth, Option.bind_some]
  dsimp -zeta only
  rw [hdash, Option.bind_some, number?_two hday, Option.bind_some]
  dsimp only
  split
  · rename_i heq
    obtain rfl := (List.cons.inj heq).2
    rw [Option.bind_some, number?_two hhour, Option.bind_some]
    dsimp only
    rw [hcolon, Option.bind_some, number?_two hminute, Option.bind_some]
    dsimp only
    rw [hcolon, Option.bind_some, number?_two hsecond, Option.bind_some]
    dsimp only
    rw [fraction?_fractionText hnano, Option.bind_eq_bind, Option.bind_some, hzone,
      Option.bind_some]
    have hend : dropBlanks [] = [] := rfl
    simp only [hend, true_and, Int.sub_zero, guard]
    split_ifs <;> first | rfl | simp_all
  · rename_i hother
    simp at hother
  · rename_i hother
    simp at hother
  · rename_i hother _ _
    exact absurd rfl (hother _)

/-- What an instant is written as spells that instant. -/
theorem read?_text (t : Instant) : read? t.text.toList = some t := by
  have hdays := Date.toDays_ofDays (t.second / secondsPerDay)
  have hexists := Date.exists_ofDays (t.second / secondsPerDay)
  have hyears := year_bounds t
  have hfits := t.nanoFits
  unfold text
  generalize Date.ofDays (t.second / secondsPerDay) = date at hdays hexists hyears ⊢
  generalize hin : t.second % secondsPerDay = inDay
  unfold secondsPerDay at hin
  have hmonth : 0 ≤ date.month ∧ date.month < 100 := by
    obtain ⟨h0, h1, -⟩ := hexists
    omega
  have hday : 0 ≤ date.day ∧ date.day < 100 := by
    obtain ⟨-, -, h0, h1⟩ := hexists
    have hlength := Date.daysInMonth_le date.year date.month
    omega
  have hinstant : date.toDays * secondsPerDay + inDay = t.second := by
    rw [hdays]
    unfold secondsPerDay
    omega
  generalize hleap : (if t.nano < 1000000000 then 0 else 1 : Int) = leap
  -- A leap second is written as second 60, and only behind second 59.
  have hsplit : (leap = 0 ∧ t.nano < 1000000000)
      ∨ (leap = 1 ∧ 1000000000 ≤ t.nano ∧ t.nano < 2000000000 ∧ inDay % 60 = 59) := by
    split_ifs at hleap <;> omega
  have hsecond : inDay / 3600 * 3600 + inDay / 60 % 60 * 60
      + (if inDay % 60 + leap = 60 then 59 else inDay % 60 + leap) = inDay := by
    split_ifs <;> omega
  have hnano :
      t.nano % 1000000000 + (if inDay % 60 + leap = 60 then 1000000000 else 0) = t.nano := by
    split_ifs <;> omega
  have hhour : 0 ≤ inDay / 3600 ∧ inDay / 3600 < 100 := by omega
  have hminute : 0 ≤ inDay / 60 % 60 ∧ inDay / 60 % 60 < 100 := by omega
  have hsixty : 0 ≤ inDay % 60 + leap ∧ inDay % 60 + leap < 100 := by omega
  have hrest : t.nano % 1000000000 < 1000000000 := by omega
  have hread := read?_parts date.year hmonth hday hhour hminute hsixty hrest
  rw [if_pos ⟨⟨hyears.1, hyears.2, hexists⟩, by omega, by omega, by omega⟩, hsecond, hnano,
    hinstant, at?_self] at hread
  simpa using hread

end EntityFlux.Instant
