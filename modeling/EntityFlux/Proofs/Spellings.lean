import EntityFlux.Flux.Document
import EntityFlux.Proofs.DayNumbers
import EntityFlux.Proofs.ExprJson
import Mathlib.Data.List.Basic
import Mathlib.Data.List.TakeWhile

/-!
# The spellings of a date-time

What a date-time text says, piece by piece, and which instant that is: the day is counted along the
calendar, and second 60 is the leap second behind 59. The reader accepts a text exactly if it spells
an instant, and gives that instant (`read?_eq_some_iff`). Each piece is taken off whole, because
what may follow it cannot go on with it.
-/

namespace EntityFlux.Instant

open EntityFlux.Text Reader

/-! ## The grammar -/

def Blanks (cs : List Char) : Prop := ∀ c ∈ cs, isBlank c

/-- Digits, at least one. -/
def Digits (cs : List Char) : Prop := cs ≠ [] ∧ ∀ c ∈ cs, c.isDigit

/-- The number in at most `most` digits, behind any blanks. -/
def SpellsNumber (most : Nat) (n : Int) (cs : List Char) : Prop :=
  ∃ blanks digits, cs = blanks ++ digits ∧ Blanks blanks ∧ Digits digits
    ∧ digits.length ≤ most ∧ n = Numeral.value digits

def SpellsMark (c : Char) (cs : List Char) : Prop := ∃ blanks, cs = blanks ++ [c] ∧ Blanks blanks

/-- A year in at most four digits, or in any number of digits behind a sign. -/
def SpellsYear (year : Int) (cs : List Char) : Prop :=
  SpellsNumber 4 year cs ∨ ∃ blanks sign digits, cs = blanks ++ sign :: digits ∧ Blanks blanks
    ∧ Digits digits ∧ (sign = '+' ∧ year = Numeral.value digits
      ∨ sign = '-' ∧ year = -Numeral.value digits)

/-- No fraction, or a point and digits of which the first nine count. -/
def SpellsFraction (nano : Nat) (cs : List Char) : Prop :=
  cs = [] ∧ nano = 0 ∨ ∃ digits, cs = '.' :: digits ∧ Digits digits
    ∧ nano = Numeral.value (digits.take 9) * 10 ^ (9 - (digits.take 9).length)

/-- Hours and minutes in two digits each, with colons and blanks between them or not. -/
structure OffsetDigits (hours between minutes : List Char) : Prop where
  hoursDigits : Digits hours
  hoursLength : hours.length = 2
  hoursMost : Numeral.value hours ≤ 23
  between : ∀ c ∈ between, c = ':' || isBlank c
  minutesDigits : Digits minutes
  minutesLength : minutes.length = 2
  minutesMost : Numeral.value minutes ≤ 59

/-- An offset in seconds: its hours and minutes behind a sign. -/
def SpellsOffset (east : Int) (cs : List Char) : Prop :=
  ∃ sign hours between minutes, cs = sign :: (hours ++ (between ++ minutes))
    ∧ OffsetDigits hours between minutes
    ∧ (sign = '+' ∧ east = Numeral.value hours * 3600 + Numeral.value minutes * 60
      ∨ (sign = '-' ∨ sign = '\u2212')
        ∧ east = -(Numeral.value hours * 3600 + Numeral.value minutes * 60))

def SpellsZone (east : Int) (cs : List Char) : Prop :=
  ∃ blanks zone, cs = blanks ++ zone ∧ Blanks blanks
    ∧ (east = 0 ∧ (zone = ['Z'] ∨ zone = ['z'] ∨ zone.map Char.toUpper = ['U', 'T', 'C'])
      ∨ SpellsOffset east zone)

/-- What a date-time text says. -/
structure Fields where
  date : Date
  hour : Int
  minute : Int
  second : Int
  nano : Nat
  /-- Seconds east of UTC. -/
  east : Int

def SpellsDate (date : Date) (cs : List Char) : Prop :=
  ∃ year dash month dash' day, cs = year ++ (dash ++ (month ++ (dash' ++ day)))
    ∧ SpellsYear date.year year ∧ SpellsMark '-' dash ∧ SpellsNumber 2 date.month month
    ∧ SpellsMark '-' dash' ∧ SpellsNumber 2 date.day day

/-- The time of day and the zone, up to the end of the text. -/
def SpellsTime (f : Fields) (cs : List Char) : Prop :=
  ∃ hour colon minute colon' second fraction zone tail,
    cs = hour ++ (colon ++ (minute ++ (colon' ++ (second ++ (fraction ++ (zone ++ tail))))))
    ∧ SpellsNumber 2 f.hour hour ∧ SpellsMark ':' colon ∧ SpellsNumber 2 f.minute minute
    ∧ SpellsMark ':' colon' ∧ SpellsNumber 2 f.second second ∧ SpellsFraction f.nano fraction
    ∧ SpellsZone f.east zone ∧ Blanks tail

def Spells (cs : List Char) (f : Fields) : Prop :=
  ∃ date separator time, cs = date ++ separator :: time ∧ SpellsDate f.date date
    ∧ (separator = 'T' ∨ separator = 't' ∨ separator = ' ') ∧ SpellsTime f time

/-- These fields are those of the instant. -/
structure Fields.Name (f : Fields) (t : Instant) : Prop where
  year : leastYear ≤ f.date.year ∧ f.date.year ≤ greatestYear
  time : f.hour ≤ 23 ∧ f.minute ≤ 59 ∧ f.second ≤ 60
  second : ∃ days, f.date.DayNumber days ∧ t.second = days * 86400
    + (f.hour * 3600 + f.minute * 60 + (if f.second = 60 then 59 else f.second)) - f.east
  nano : t.nano = f.nano + if f.second = 60 then 1000000000 else 0

/-- The text stands for the instant. -/
def Denotes (cs : List Char) (t : Instant) : Prop := ∃ f, Spells cs f ∧ f.Name t

/-! ## Pieces -/

section Pieces

variable {cs rest front : List Char}

theorem dropBlanks_split (cs : List Char) :
    ∃ blanks, cs = blanks ++ dropBlanks cs ∧ Blanks blanks :=
  ⟨cs.takeWhile isBlank, List.takeWhile_append_dropWhile.symm,
    fun _ hc => List.mem_takeWhile_imp hc⟩

theorem dropBlanks_append {blanks : List Char} (h : Blanks blanks) (rest : List Char) :
    dropBlanks (blanks ++ rest) = dropBlanks rest :=
  List.dropWhile_append_of_pos h

theorem dropBlanks_cons {c : Char} (h : isBlank c = false) (rest : List Char) :
    dropBlanks (c :: rest) = c :: rest := by
  simp [dropBlanks, h]

theorem dropBlanks_eq_nil_iff : dropBlanks cs = [] ↔ Blanks cs :=
  List.dropWhile_eq_nil_iff

theorem startsApart_blanks {blanks : List Char} (h : Blanks blanks)
    (hrest : Numeral.StartsApart rest) : Numeral.StartsApart (blanks ++ rest) := by
  cases blanks with
  | nil => exact hrest
  | cons c blanks =>
    refine Numeral.startsApart_cons ?_ _
    have hblank := h c (by simp)
    rw [Bool.eq_false_iff]
    intro hdigit
    rw [not_isBlank_of_isDigit hdigit] at hblank
    cases hblank

theorem Digits.dropBlanks_append {digits : List Char} (h : Digits digits) (rest : List Char) :
    dropBlanks (digits ++ rest) = digits ++ rest := dropBlanks_digits h.1 h.2 rest

theorem spanUpTo_sound {most : Nat} {digits : List Char}
    (h : Numeral.spanUpTo most cs = (digits, rest)) :
    cs = digits ++ rest ∧ (∀ c ∈ digits, c.isDigit) ∧ digits.length ≤ most := by
  have happend := Numeral.spanUpTo_append most cs
  rw [h] at happend
  refine ⟨happend.symm, ?_⟩
  clear happend
  induction most generalizing cs digits with
  | zero =>
    cases cs <;> simp_all [Numeral.spanUpTo]
  | succ most ih =>
    cases cs with
    | nil => simp_all [Numeral.spanUpTo]
    | cons c cs =>
      simp only [Numeral.spanUpTo] at h
      split at h
      · rename_i hc
        simp only [Prod.mk.injEq] at h
        obtain ⟨rfl, rfl⟩ := h
        obtain ⟨hdigits, hlength⟩ := ih rfl
        exact ⟨List.forall_mem_cons.2 ⟨hc, hdigits⟩, Nat.succ_le_succ hlength⟩
      · simp_all

theorem spanUpTo_complete {most : Nat} {digits : List Char} (hdigits : ∀ c ∈ digits, c.isDigit)
    (hlength : digits.length ≤ most) (hrest : Numeral.StartsApart rest) :
    Numeral.spanUpTo most (digits ++ rest) = (digits, rest) := by
  induction digits generalizing most with
  | nil =>
    cases most with
    | zero => cases rest <;> rfl
    | succ most =>
      cases rest with
      | nil => rfl
      | cons c rest => simp [Numeral.spanUpTo, hrest c rfl]
  | cons c digits ih =>
    obtain ⟨hc, hdigits⟩ := List.forall_mem_cons.1 hdigits
    cases most with
    | zero => simp at hlength
    | succ most =>
      simp only [List.cons_append, Numeral.spanUpTo, hc, if_true]
      rw [ih hdigits (by simpa using hlength)]

theorem number?_sound {most : Nat} {n : Int} (h : number? most cs = some (n, rest)) :
    ∃ front, cs = front ++ rest ∧ SpellsNumber most n front := by
  obtain ⟨blanks, hcs, hblanks⟩ := dropBlanks_split cs
  unfold number? at h
  split at h
  · cases h
  · rename_i digits more hne hspan
    obtain ⟨rfl, rfl⟩ := Prod.mk.inj (Option.some.inj h)
    obtain ⟨happend, hdigits, hlength⟩ := spanUpTo_sound hspan
    rw [happend] at hcs
    exact ⟨blanks ++ digits, by rw [hcs, List.append_assoc], blanks, digits, rfl, hblanks,
      ⟨hne, hdigits⟩, hlength, rfl⟩

theorem number?_complete {most : Nat} {n : Int} (h : SpellsNumber most n front)
    (hrest : Numeral.StartsApart rest) : number? most (front ++ rest) = some (n, rest) := by
  obtain ⟨blanks, digits, rfl, hblanks, hdigits, hlength, rfl⟩ := h
  unfold number?
  rw [List.append_assoc, dropBlanks_append hblanks, hdigits.dropBlanks_append,
    spanUpTo_complete hdigits.2 hlength hrest]
  split
  · rename_i heq
    exact absurd (Prod.mk.inj heq).1 hdigits.1
  · rename_i heq
    obtain ⟨rfl, rfl⟩ := Prod.mk.inj heq
    rfl

theorem mark?_sound {c : Char} (h : mark? c cs = some rest) :
    ∃ front, cs = front ++ rest ∧ SpellsMark c front := by
  obtain ⟨blanks, hcs, hblanks⟩ := dropBlanks_split cs
  unfold mark? at h
  split at h
  · rename_i d more hdrop
    split_ifs at h with heq
    obtain rfl := Option.some.inj h
    rw [hdrop, heq] at hcs
    exact ⟨blanks ++ [c], by rw [hcs, List.append_assoc]; rfl, blanks, rfl, hblanks⟩
  · cases h

theorem mark?_complete {c : Char} (hc : isBlank c = false) (h : SpellsMark c front)
    (rest : List Char) : mark? c (front ++ rest) = some rest := by
  obtain ⟨blanks, rfl, hblanks⟩ := h
  rw [List.append_assoc, mark?, dropBlanks_append hblanks, List.singleton_append,
    dropBlanks_cons hc]
  simp

theorem span_sound {digits : List Char} (h : Numeral.span cs = (digits, rest)) :
    cs = digits ++ rest ∧ ∀ c ∈ digits, c.isDigit := by
  simp only [Numeral.span, Prod.mk.injEq] at h
  obtain ⟨rfl, rfl⟩ := h
  exact ⟨List.takeWhile_append_dropWhile.symm, fun _ hc => List.mem_takeWhile_imp hc⟩

theorem SpellsNumber.behind {most : Nat} {n : Int} (h : SpellsNumber most n front)
    {blanks : List Char} (hblanks : Blanks blanks) : SpellsNumber most n (blanks ++ front) := by
  obtain ⟨more, digits, rfl, hmore, hdigits, hlength, rfl⟩ := h
  exact ⟨blanks ++ more, digits, (List.append_assoc _ _ _).symm,
    List.forall_mem_append.2 ⟨hblanks, hmore⟩, hdigits, hlength, rfl⟩

theorem signed_sound {sign year : Int} (h : year?.signed sign cs = some (year, rest)) :
    ∃ digits, cs = digits ++ rest ∧ Digits digits ∧ year = sign * Numeral.value digits := by
  unfold year?.signed at h
  split at h
  · cases h
  · rename_i digits more hne hspan
    obtain ⟨rfl, rfl⟩ := Prod.mk.inj (Option.some.inj h)
    obtain ⟨happend, hdigits⟩ := span_sound hspan
    exact ⟨digits, happend, ⟨hne, hdigits⟩, rfl⟩

theorem signed_complete (sign : Int) {digits : List Char} (h : Digits digits)
    (hrest : Numeral.StartsApart rest) :
    year?.signed sign (digits ++ rest) = some (sign * Numeral.value digits, rest) := by
  unfold year?.signed
  rw [Numeral.span_digits h.2 hrest]
  split
  · rename_i heq
    exact absurd (Prod.mk.inj heq).1 h.1
  · rename_i heq
    obtain ⟨rfl, rfl⟩ := Prod.mk.inj heq
    rfl

theorem year?_sound {year : Int} (h : year? cs = some (year, rest)) :
    ∃ front, cs = front ++ rest ∧ SpellsYear year front := by
  obtain ⟨blanks, hcs, hblanks⟩ := dropBlanks_split cs
  unfold year? at h
  split at h
  · rename_i more hdrop
    obtain ⟨digits, rfl, hdigits, rfl⟩ := signed_sound h
    rw [hdrop] at hcs
    exact ⟨blanks ++ '-' :: digits, by rw [hcs, List.append_assoc]; rfl,
      .inr ⟨blanks, '-', digits, rfl, hblanks, hdigits, .inr ⟨rfl, Int.neg_one_mul _⟩⟩⟩
  · rename_i more hdrop
    obtain ⟨digits, rfl, hdigits, rfl⟩ := signed_sound h
    rw [hdrop] at hcs
    exact ⟨blanks ++ '+' :: digits, by rw [hcs, List.append_assoc]; rfl,
      .inr ⟨blanks, '+', digits, rfl, hblanks, hdigits, .inl ⟨rfl, Int.one_mul _⟩⟩⟩
  · obtain ⟨front, hfront, hnumber⟩ := number?_sound h
    rw [hfront] at hcs
    exact ⟨blanks ++ front, by rw [hcs, List.append_assoc], .inl (hnumber.behind hblanks)⟩

theorem year?_complete {year : Int} (h : SpellsYear year front)
    (hrest : Numeral.StartsApart rest) : year? (front ++ rest) = some (year, rest) := by
  rcases h with hnumber | ⟨blanks, sign, digits, rfl, hblanks, hdigits, hsign⟩
  · obtain ⟨blanks, digits, rfl, hblanks, hdigits, hlength, rfl⟩ := hnumber
    have hread := number?_complete ⟨[], digits, rfl, by simp [Blanks], hdigits, hlength, rfl⟩ hrest
    unfold year?
    rw [List.append_assoc, dropBlanks_append hblanks, hdigits.dropBlanks_append]
    split
    · rename_i heq
      exact absurd (Numeral.isDigit_front hdigits.2 hdigits.1 heq) (by decide)
    · rename_i heq
      exact absurd (Numeral.isDigit_front hdigits.2 hdigits.1 heq) (by decide)
    · exact hread
  · have hsigned := fun sign => signed_complete sign hdigits hrest
    unfold year?
    rw [List.append_assoc, dropBlanks_append hblanks, List.cons_append]
    rcases hsign with ⟨rfl, rfl⟩ | ⟨rfl, rfl⟩
    · rw [dropBlanks_cons (by decide)]
      simpa using hsigned 1
    · rw [dropBlanks_cons (by decide)]
      simpa using hsigned (-1)

theorem fraction?_sound {nano : Nat} (h : fraction? cs = some (nano, rest)) :
    ∃ front, cs = front ++ rest ∧ SpellsFraction nano front := by
  unfold fraction? at h
  split at h
  · split at h
    · cases h
    · rename_i digits more hne hspan
      obtain ⟨rfl, rfl⟩ := Prod.mk.inj (Option.some.inj h)
      obtain ⟨rfl, hdigits⟩ := span_sound hspan
      exact ⟨'.' :: digits, rfl, .inr ⟨digits, rfl, ⟨hne, hdigits⟩, rfl⟩⟩
  · obtain ⟨rfl, rfl⟩ := Prod.mk.inj (Option.some.inj h)
    exact ⟨[], rfl, .inl ⟨rfl, rfl⟩⟩

theorem fraction?_complete {nano : Nat} (h : SpellsFraction nano front)
    (hrest : Numeral.StartsApart rest) (hpoint : rest.head? ≠ some '.') :
    fraction? (front ++ rest) = some (nano, rest) := by
  rcases h with ⟨rfl, rfl⟩ | ⟨digits, rfl, hdigits, rfl⟩
  · unfold fraction?
    split
    · rename_i heq
      rw [List.nil_append] at heq
      exact absurd (congrArg List.head? heq) hpoint
    · rfl
  · unfold fraction?
    simp only [List.cons_append]
    rw [Numeral.span_digits hdigits.2 hrest]
    split
    · rename_i heq
      exact absurd (Prod.mk.inj heq).1 hdigits.1
    · rename_i heq
      obtain ⟨rfl, rfl⟩ := Prod.mk.inj heq
      rfl

theorem offset_sound {sign east : Int} (h : zone?.offset sign cs = some (east, rest)) :
    ∃ hours between minutes, cs = hours ++ (between ++ (minutes ++ rest))
      ∧ OffsetDigits hours between minutes
      ∧ east = sign * (Numeral.value hours * 3600 + Numeral.value minutes * 60) := by
  unfold zone?.offset at h
  split at h
  · rename_i a b more
    split at h
    · rename_i c d others hdrop
      simp only at h
      split_ifs at h with hvalid
      obtain ⟨rfl, rfl⟩ := Prod.mk.inj (Option.some.inj h)
      obtain ⟨hdigits, hhours, hminutes⟩ := hvalid
      simp only [List.all_cons, List.all_nil, Bool.and_true, Bool.and_eq_true] at hdigits
      obtain ⟨ha, hb, hc, hd⟩ := hdigits
      obtain ⟨between, rfl, hbetween⟩ : ∃ between, more = between ++ c :: d :: others
          ∧ ∀ x ∈ between, x = ':' || isBlank x := by
        rw [← hdrop]
        exact ⟨_, List.takeWhile_append_dropWhile.symm,
          fun x hx => List.mem_takeWhile_imp (p := fun x => x = ':' || isBlank x) hx⟩
      exact ⟨[a, b], between, [c, d], rfl, ⟨by simp [Digits, ha, hb], rfl, hhours, hbetween,
        by simp [Digits, hc, hd], rfl, hminutes⟩, rfl⟩
    · cases h
  · cases h

theorem offset_complete (sign : Int) {hours between minutes : List Char}
    (h : OffsetDigits hours between minutes) (rest : List Char) :
    zone?.offset sign (hours ++ (between ++ (minutes ++ rest)))
      = some (sign * (Numeral.value hours * 3600 + Numeral.value minutes * 60), rest) := by
  obtain ⟨hhours, hlength, hmost, hbetween, hminutes, hlength', hmost'⟩ := h
  obtain ⟨a, b, rfl⟩ := List.length_eq_two.1 hlength
  obtain ⟨c, d, rfl⟩ := List.length_eq_two.1 hlength'
  have hc : c.isDigit := hminutes.2 c (by simp)
  have hdrop : (between ++ c :: d :: rest).dropWhile (fun c => c = ':' || isBlank c)
      = c :: d :: rest := by
    have hcolon : c ≠ ':' := by
      rintro rfl
      exact absurd hc (by decide)
    rw [List.dropWhile_append_of_pos hbetween]
    simp [hcolon, not_isBlank_of_isDigit hc]
  have hall : [a, b, c, d].all Char.isDigit := by
    rw [List.all_eq_true]
    have hboth : ∀ x ∈ [a, b] ++ [c, d], x.isDigit :=
      List.forall_mem_append.2 ⟨hhours.2, hminutes.2⟩
    exact hboth
  simp only [zone?.offset, List.cons_append, List.nil_append, hdrop]
  rw [if_pos ⟨hall, by exact_mod_cast hmost, by exact_mod_cast hmost'⟩]

theorem zone?_sound {east : Int} (h : zone? cs = some (east, rest)) :
    ∃ front, cs = front ++ rest ∧ SpellsZone east front := by
  obtain ⟨blanks, hcs, hblanks⟩ := dropBlanks_split cs
  suffices hzone : ∃ zone, dropBlanks cs = zone ++ rest
      ∧ (east = 0 ∧ (zone = ['Z'] ∨ zone = ['z'] ∨ zone.map Char.toUpper = ['U', 'T', 'C'])
        ∨ SpellsOffset east zone) by
    obtain ⟨zone, hdrop, hzone⟩ := hzone
    rw [hdrop] at hcs
    exact ⟨blanks ++ zone, by rw [hcs, List.append_assoc], blanks, zone, rfl, hblanks, hzone⟩
  have hoffset : ∀ {sign : Char} {factor : Int} {more : List Char},
      dropBlanks cs = sign :: more → zone?.offset factor more = some (east, rest) →
      (sign = '+' ∧ factor = 1 ∨ (sign = '-' ∨ sign = '\u2212') ∧ factor = -1) →
      ∃ zone, dropBlanks cs = zone ++ rest ∧ SpellsOffset east zone := by
    intro sign factor more hdrop hread hsign
    obtain ⟨hours, between, minutes, rfl, hdigits, rfl⟩ := offset_sound hread
    refine ⟨sign :: (hours ++ (between ++ minutes)), by simp [hdrop], sign, hours, between, minutes,
      rfl, hdigits, ?_⟩
    rcases hsign with ⟨hs, rfl⟩ | ⟨hs, rfl⟩
    · exact .inl ⟨hs, Int.one_mul _⟩
    · exact .inr ⟨hs, Int.neg_one_mul _⟩
  unfold zone? at h
  split at h
  · rename_i more hdrop
    obtain ⟨rfl, rfl⟩ := Prod.mk.inj (Option.some.inj h)
    exact ⟨['Z'], hdrop, .inl ⟨rfl, .inl rfl⟩⟩
  · rename_i more hdrop
    obtain ⟨rfl, rfl⟩ := Prod.mk.inj (Option.some.inj h)
    exact ⟨['z'], hdrop, .inl ⟨rfl, .inr (.inl rfl)⟩⟩
  · rename_i more hdrop
    obtain ⟨zone, hzone, hspells⟩ := hoffset hdrop h (.inl ⟨rfl, rfl⟩)
    exact ⟨zone, hzone, .inr hspells⟩
  · rename_i more hdrop
    obtain ⟨zone, hzone, hspells⟩ := hoffset hdrop h (.inr ⟨.inl rfl, rfl⟩)
    exact ⟨zone, hzone, .inr hspells⟩
  · rename_i more hdrop
    obtain ⟨zone, hzone, hspells⟩ := hoffset hdrop h (.inr ⟨.inr rfl, rfl⟩)
    exact ⟨zone, hzone, .inr hspells⟩
  · rename_i u t c more _ _ _ _ _ hdrop
    split_ifs at h with hutc
    obtain ⟨rfl, rfl⟩ := Prod.mk.inj (Option.some.inj h)
    refine ⟨[u, t, c], hdrop, .inl ⟨rfl, .inr (.inr ?_)⟩⟩
    simp [hutc]
  · cases h

theorem eq_of_toUpper {c : Char} (h : c.toUpper = 'U') : c = 'U' ∨ c = 'u' := by
  unfold Char.toUpper at h
  split at h
  · right
    have hval := congrArg Char.val h
    simp only at hval
    apply Char.ext
    rw [← UInt32.add_sub_cancel c.val ('A'.val - 'a'.val), hval]
    decide
  · exact .inl h

theorem zone?_complete {east : Int} (h : SpellsZone east front) (rest : List Char) :
    zone? (front ++ rest) = some (east, rest) := by
  obtain ⟨blanks, zone, rfl, hblanks, hzone⟩ := h
  unfold zone?
  rw [List.append_assoc, dropBlanks_append hblanks]
  rcases hzone with ⟨rfl, rfl | rfl | hutc⟩ | ⟨sign, hours, between, minutes, rfl, hdigits, hsign⟩
  · rfl
  · rfl
  · obtain ⟨u, others, rfl, hu, hothers⟩ := List.map_eq_cons_iff.1 hutc
    obtain ⟨t, others, rfl, ht, hothers⟩ := List.map_eq_cons_iff.1 hothers
    obtain ⟨c, others, rfl, hc, hothers⟩ := List.map_eq_cons_iff.1 hothers
    obtain rfl := List.map_eq_nil_iff.1 hothers
    rcases eq_of_toUpper hu with rfl | rfl
    · rw [List.cons_append, dropBlanks_cons (by decide)]
      simp [ht, hc]
    · rw [List.cons_append, dropBlanks_cons (by decide)]
      simp [ht, hc]
  · have hread := fun factor => offset_complete factor hdigits rest
    rw [List.cons_append, List.append_assoc, List.append_assoc]
    rcases hsign with ⟨rfl, rfl⟩ | ⟨rfl | rfl, rfl⟩
    · rw [dropBlanks_cons (by decide)]
      simpa using hread 1
    · rw [dropBlanks_cons (by decide)]
      simpa using hread (-1)
    · rw [dropBlanks_cons (by decide)]
      simpa using hread (-1)

/-- A zone goes on with neither a number nor a fraction. -/
theorem SpellsZone.startsApart {east : Int} (h : SpellsZone east front) (rest : List Char) :
    Numeral.StartsApart (front ++ rest) ∧ (front ++ rest).head? ≠ some '.' := by
  suffices hfront : ∃ c cs, front = c :: cs ∧ c.isDigit = false ∧ c ≠ '.' by
    obtain ⟨c, cs, rfl, hdigit, hpoint⟩ := hfront
    exact ⟨Numeral.startsApart_cons hdigit _, by simpa using hpoint⟩
  obtain ⟨blanks, zone, rfl, hblanks, hzone⟩ := h
  cases blanks with
  | cons c blanks =>
    have hblank := hblanks c (by simp)
    refine ⟨c, blanks ++ zone, rfl, ?_, ?_⟩
    · rw [Bool.eq_false_iff]
      intro hdigit
      rw [not_isBlank_of_isDigit hdigit] at hblank
      cases hblank
    · rintro rfl
      exact absurd hblank (by decide)
  | nil =>
    rcases hzone with ⟨-, rfl | rfl | hutc⟩ | ⟨sign, hours, between, minutes, rfl, -, hsign⟩
    · exact ⟨'Z', [], rfl, by decide, by decide⟩
    · exact ⟨'z', [], rfl, by decide, by decide⟩
    · obtain ⟨u, others, rfl, hu, -⟩ := List.map_eq_cons_iff.1 hutc
      rcases eq_of_toUpper hu with rfl | rfl
      · exact ⟨'U', others, rfl, by decide, by decide⟩
      · exact ⟨'u', others, rfl, by decide, by decide⟩
    · rcases hsign with ⟨rfl, -⟩ | ⟨rfl | rfl, -⟩
      · exact ⟨_, _, rfl, by decide, by decide⟩
      · exact ⟨_, _, rfl, by decide, by decide⟩
      · exact ⟨_, _, rfl, by decide, by decide⟩

theorem SpellsMark.startsApart {c : Char} (hc : c.isDigit = false) (h : SpellsMark c front)
    (rest : List Char) : Numeral.StartsApart (front ++ rest) := by
  obtain ⟨blanks, rfl, hblanks⟩ := h
  rw [List.append_assoc]
  exact startsApart_blanks hblanks (Numeral.startsApart_cons hc _)

theorem SpellsFraction.startsApart {nano : Nat} (h : SpellsFraction nano front)
    (hrest : Numeral.StartsApart rest) : Numeral.StartsApart (front ++ rest) := by
  rcases h with ⟨rfl, -⟩ | ⟨digits, rfl, -, -⟩
  · exact hrest
  · exact Numeral.startsApart_cons (by decide) _

end Pieces

/-! ## Whole texts -/

theorem at?_eq_some_iff {second : Int} {nano : Nat} {t : Instant} :
    at? second nano = some t ↔ t.second = second ∧ t.nano = nano := by
  constructor
  · intro h
    unfold at? at h
    split_ifs at h
    obtain rfl := Option.some.inj h
    exact ⟨rfl, rfl⟩
  · rintro ⟨rfl, rfl⟩
    exact at?_self t

/-- The reader behind the date and the separator. -/
def time? (date : Date) (cs : List Char) : Option Instant := do
  let (hour, cs) ← number? 2 cs
  let cs ← mark? ':' cs
  let (minute, cs) ← number? 2 cs
  let cs ← mark? ':' cs
  let (second, cs) ← number? 2 cs
  let (nano, cs) ← fraction? cs
  let (east, cs) ← zone? cs
  guard (dropBlanks cs = [] ∧ leastYear ≤ date.year ∧ date.year ≤ greatestYear ∧ date.Exists)
  guard (hour ≤ 23 ∧ minute ≤ 59 ∧ second ≤ 60)
  let leap := second = 60
  let inDay := hour * 3600 + minute * 60 + (if leap then 59 else second)
  at? (date.toDays * secondsPerDay + inDay - east) (nano + if leap then 1000000000 else 0)

theorem name_iff {f : Fields} {t : Instant} :
    f.Name t ↔ ((leastYear ≤ f.date.year ∧ f.date.year ≤ greatestYear ∧ f.date.Exists)
      ∧ f.hour ≤ 23 ∧ f.minute ≤ 59 ∧ f.second ≤ 60)
      ∧ at? (f.date.toDays * secondsPerDay + (f.hour * 3600 + f.minute * 60
          + (if f.second = 60 then 59 else f.second)) - f.east)
        (f.nano + if f.second = 60 then 1000000000 else 0) = some t := by
  rw [at?_eq_some_iff]
  constructor
  · rintro ⟨hyear, htime, ⟨days, hdays, hsecond⟩, hnano⟩
    obtain ⟨hexists, rfl⟩ := Date.dayNumber_iff.1 hdays
    exact ⟨⟨⟨hyear.1, hyear.2, hexists⟩, htime⟩, hsecond, hnano⟩
  · rintro ⟨⟨⟨hleast, hgreatest, hexists⟩, htime⟩, hsecond, hnano⟩
    exact ⟨⟨hleast, hgreatest⟩, htime, ⟨_, Date.dayNumber_iff.2 ⟨hexists, rfl⟩, hsecond⟩, hnano⟩

theorem of_guard {p : Prop} [Decidable p] {u : Unit} (h : guard (f := Option) p = some u) : p := by
  unfold guard at h
  split_ifs at h with hp
  exact hp

theorem guard_pos {p : Prop} [Decidable p] (h : p) : guard (f := Option) p = some () := if_pos h

theorem time?_sound {date : Date} {cs : List Char} {t : Instant} (h : time? date cs = some t) :
    ∃ f, f.date = date ∧ SpellsTime f cs ∧ f.Name t := by
  unfold time? at h
  obtain ⟨⟨hour, cs₁⟩, hhour, h⟩ := Option.bind_eq_some_iff.1 h
  obtain ⟨cs₂, hcolon, h⟩ := Option.bind_eq_some_iff.1 h
  obtain ⟨⟨minute, cs₃⟩, hminute, h⟩ := Option.bind_eq_some_iff.1 h
  obtain ⟨cs₄, hcolon', h⟩ := Option.bind_eq_some_iff.1 h
  obtain ⟨⟨second, cs₅⟩, hsecond, h⟩ := Option.bind_eq_some_iff.1 h
  obtain ⟨⟨nano, cs₆⟩, hnano, h⟩ := Option.bind_eq_some_iff.1 h
  obtain ⟨⟨east, cs₇⟩, hzone, h⟩ := Option.bind_eq_some_iff.1 h
  obtain ⟨_, hdate, h⟩ := Option.bind_eq_some_iff.1 h
  obtain ⟨_, htime, h⟩ := Option.bind_eq_some_iff.1 h
  obtain ⟨hend, hyears, hyears', hexists⟩ := of_guard hdate
  have htimes := of_guard htime
  obtain ⟨hourText, hcs, hhour⟩ := number?_sound hhour
  obtain ⟨colonText, hcs₁, hcolon⟩ := mark?_sound hcolon
  obtain ⟨minuteText, hcs₂, hminute⟩ := number?_sound hminute
  obtain ⟨colonText', hcs₃, hcolon'⟩ := mark?_sound hcolon'
  obtain ⟨secondText, hcs₄, hsecond⟩ := number?_sound hsecond
  obtain ⟨fractionText, hcs₅, hnano⟩ := fraction?_sound hnano
  obtain ⟨zoneText, hcs₆, hzone⟩ := zone?_sound hzone
  refine ⟨⟨date, hour, minute, second, nano, east⟩, rfl, ?_, name_iff.2 ?_⟩
  · exact ⟨hourText, colonText, minuteText, colonText', secondText, fractionText, zoneText, cs₇,
      by rw [hcs, hcs₁, hcs₂, hcs₃, hcs₄, hcs₅, hcs₆], hhour, hcolon, hminute, hcolon', hsecond,
      hnano, hzone, dropBlanks_eq_nil_iff.1 hend⟩
  · exact ⟨⟨⟨hyears, hyears', hexists⟩, htimes⟩, h⟩

theorem time?_complete {f : Fields} {cs : List Char} {t : Instant} (hspells : SpellsTime f cs)
    (hname : f.Name t) : time? f.date cs = some t := by
  obtain ⟨hourText, colonText, minuteText, colonText', secondText, fractionText, zoneText, tail,
    rfl, hhour, hcolon, hminute, hcolon', hsecond, hnano, hzone, htail⟩ := hspells
  obtain ⟨⟨hdate, htime⟩, hat⟩ := name_iff.1 hname
  have hend := dropBlanks_eq_nil_iff.2 htail
  obtain ⟨hapart, hpoint⟩ := hzone.startsApart tail
  unfold time?
  rw [number?_complete hhour (hcolon.startsApart (by decide) _), Option.bind_eq_bind,
    Option.bind_some]
  dsimp only
  rw [mark?_complete (by decide) hcolon, Option.bind_eq_bind, Option.bind_some,
    number?_complete hminute (hcolon'.startsApart (by decide) _), Option.bind_some]
  dsimp only
  rw [mark?_complete (by decide) hcolon', Option.bind_eq_bind, Option.bind_some,
    number?_complete hsecond (hnano.startsApart hapart), Option.bind_some]
  dsimp only
  rw [fraction?_complete hnano hapart hpoint, Option.bind_eq_bind, Option.bind_some]
  dsimp only
  rw [zone?_complete hzone, Option.bind_some]
  dsimp only
  rw [guard_pos ⟨hend, hdate⟩, Option.bind_some, guard_pos htime, Option.bind_some]
  exact hat

/-- The reader accepts exactly the spellings of an instant. -/
theorem read?_eq_some_iff {cs : List Char} {t : Instant} :
    read? cs = some t ↔ Denotes cs t := by
  constructor
  · intro h
    unfold read? at h
    obtain ⟨⟨year, cs₁⟩, hyear, h⟩ := Option.bind_eq_some_iff.1 h
    obtain ⟨cs₂, hdash, h⟩ := Option.bind_eq_some_iff.1 h
    obtain ⟨⟨month, cs₃⟩, hmonth, h⟩ := Option.bind_eq_some_iff.1 h
    obtain ⟨cs₄, hdash', h⟩ := Option.bind_eq_some_iff.1 h
    obtain ⟨⟨day, cs₅⟩, hday, h⟩ := Option.bind_eq_some_iff.1 h
    obtain ⟨yearText, hcs, hyear⟩ := year?_sound hyear
    obtain ⟨dash, hcs₁, hdash⟩ := mark?_sound hdash
    obtain ⟨monthText, hcs₂, hmonth⟩ := number?_sound hmonth
    obtain ⟨dash', hcs₃, hdash'⟩ := mark?_sound hdash'
    obtain ⟨dayText, hcs₄, hday⟩ := number?_sound hday
    have hspells : ∀ separator rest, cs₅ = separator :: rest →
        (separator = 'T' ∨ separator = 't' ∨ separator = ' ') →
        time? ⟨year, month, day⟩ rest = some t → Denotes cs t := by
      intro separator rest hcs₅ hseparator hread
      obtain ⟨f, hdate, htime, hname⟩ := time?_sound hread
      refine ⟨f, ⟨yearText ++ (dash ++ (monthText ++ (dash' ++ dayText))), separator, rest,
        by simp [hcs, hcs₁, hcs₂, hcs₃, hcs₄, hcs₅], ?_, hseparator, htime⟩, hname⟩
      rw [hdate]
      exact ⟨yearText, dash, monthText, dash', dayText, rfl, hyear, hdash, hmonth, hdash', hday⟩
    -- the reader branches on the separator, and goes on behind it as `time?` in every branch
    dsimp only at h
    split at h
    · exact hspells 'T' _ rfl (.inl rfl) h
    · exact hspells 't' _ rfl (.inr (.inl rfl)) h
    · exact hspells ' ' _ rfl (.inr (.inr rfl)) h
    · cases h
  · rintro ⟨f, ⟨date, separator, time, rfl, hdate, hseparator, htime⟩, hname⟩
    obtain ⟨yearText, dash, monthText, dash', dayText, rfl, hyear, hdash, hmonth, hdash', hday⟩ :=
      hdate
    have hread := time?_complete htime hname
    have hapart : Numeral.StartsApart (separator :: time) := by
      rcases hseparator with rfl | rfl | rfl <;> exact Numeral.startsApart_cons (by decide) _
    simp only [List.append_assoc]
    unfold read?
    rw [year?_complete hyear (hdash.startsApart (by decide) _), Option.bind_eq_bind,
      Option.bind_some]
    dsimp -zeta only
    rw [mark?_complete (by decide) hdash, Option.bind_eq_bind, Option.bind_some,
      number?_complete hmonth (hdash'.startsApart (by decide) _), Option.bind_some]
    dsimp -zeta only
    rw [mark?_complete (by decide) hdash', Option.bind_some, number?_complete hday hapart,
      Option.bind_some]
    rcases hseparator with rfl | rfl | rfl
    · exact hread
    · exact hread
    · exact hread

theorem denotes_text (t : Instant) : Denotes t.text.toList t := read?_eq_some_iff.1 t.read?_text

/-- A text stands for one instant at most. -/
theorem Denotes.unique {cs : List Char} {t u : Instant} (ht : Denotes cs t) (hu : Denotes cs u) :
    t = u :=
  Option.some.inj ((read?_eq_some_iff.2 ht).symm.trans (read?_eq_some_iff.2 hu))

theorem text_injective : Function.Injective text := by
  intro t u h
  have hdenotes := t.denotes_text
  rw [h] at hdenotes
  exact hdenotes.unique u.denotes_text

end EntityFlux.Instant

/-! ## Date-time literals -/

namespace EntityFlux.Literal

open Json (Rules)
open Json.Decode

theorem ofJson?_dateTime_iff (rules : Rules) {text : String} {value : Literal} :
    ofJson? rules (typed "date_time" (.str text)) = some value
      ↔ ∃ t, Instant.Denotes text.toList t ∧ value = .dateTime t := by
  have hread : ofJson? rules (typed "date_time" (.str text))
      = (Instant.read? text.toList).map .dateTime := by
    rw [ofJson?, typed, tagAndContent_pair (by decide) (by decide)]
    rfl
  rw [hread, Option.map_eq_some_iff]
  simp only [Instant.read?_eq_some_iff, eq_comm (a := value)]

/-- What is accepted as a date-time literal stands for one instant. The literal is printed, within
running text and as a value, as a text that stands for the same instant and is read as the same
literal; so all spellings of an instant, and no others, are printed alike. -/
theorem dateTime_text_canonical (rules : Rules) {text : String} {value : Literal}
    (h : ofJson? rules (typed "date_time" (.str text)) = some value) :
    ∃ t, (∀ u, Instant.Denotes text.toList u ↔ u = t)
      ∧ Flux.Node.ofLiteral value = .dateTime value.inline
      ∧ (Flux.Node.ofLiteral value).text = value.inline
      ∧ (∀ u, Instant.Denotes value.inline.toList u ↔ u = t)
      ∧ ofJson? rules (typed "date_time" (.str value.inline)) = some value
      ∧ ∀ (rules' : Rules) (text' : String) (value' : Literal),
        ofJson? rules' (typed "date_time" (.str text')) = some value' →
        (value.inline = value'.inline ↔ Instant.Denotes text'.toList t) := by
  obtain ⟨t, ht, rfl⟩ := (ofJson?_dateTime_iff rules).1 h
  have hone : ∀ {cs : List Char}, Instant.Denotes cs t → ∀ u, Instant.Denotes cs u ↔ u = t :=
    fun hcs u => ⟨fun hu => hu.unique hcs, fun hu => hu ▸ hcs⟩
  refine ⟨t, hone ht, rfl, rfl, hone t.denotes_text,
    (ofJson?_dateTime_iff rules).2 ⟨t, t.denotes_text, rfl⟩, ?_⟩
  intro rules' text' value' h'
  obtain ⟨t', ht', rfl⟩ := (ofJson?_dateTime_iff rules').1 h'
  constructor
  · intro hinline
    rwa [Instant.text_injective hinline]
  · intro hdenotes
    rw [hdenotes.unique ht']

/-- A leap second on the last day of a year, told in the day and year behind it. -/
theorem dateTime_text_canonical_leapSecond :
    ∃ value, ofJson? .document (typed "date_time" (.str "+2017-1-01 05:29:60.5000000009 +05:30"))
        = some value
      ∧ value.inline = "2016-12-31T23:59:60.500Z"
      ∧ ofJson? .document (typed "date_time" (.str value.inline)) = some value := by
  have hread : (ofJson? .document
      (typed "date_time" (.str "+2017-1-01 05:29:60.5000000009 +05:30"))).map inline
      = some "2016-12-31T23:59:60.500Z" := by
    decide +kernel
  obtain ⟨value, hvalue, hinline⟩ := Option.map_eq_some_iff.1 hread
  obtain ⟨t, -, -, -, -, hagain, -⟩ := dateTime_text_canonical .document hvalue
  exact ⟨value, hvalue, hinline, hagain⟩

end EntityFlux.Literal
