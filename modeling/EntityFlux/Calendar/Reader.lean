import EntityFlux.Calendar.Instant
import EntityFlux.Text.Blank

/-!
# Reading date-times

The spellings of a date-time: a date, `T`, `t` or a space, a time with an optional fraction, and a
zone. Blanks may stand in front of every number, dash, colon and zone and at the end. The value is
the instant in UTC; a second 60 is the leap second after 59.
-/

namespace EntityFlux.Instant

open EntityFlux.Text

namespace Reader

/-- One to `most` digits, behind any blanks. -/
def number? (most : Nat) (cs : List Char) : Option (Int × List Char) :=
  match Numeral.spanUpTo most (dropBlanks cs) with
  | ([], _) => none
  | (digits, rest) => some (Numeral.value digits, rest)

/-- The character `c`, behind any blanks. -/
def mark? (c : Char) (cs : List Char) : Option (List Char) :=
  match dropBlanks cs with
  | d :: rest => if d = c then some rest else none
  | [] => none

/-- A year of more than four digits needs a sign. -/
def year? (cs : List Char) : Option (Int × List Char) :=
  match dropBlanks cs with
  | '-' :: rest => signed (-1) rest
  | '+' :: rest => signed 1 rest
  | rest => number? 4 rest
where
  signed (sign : Int) (cs : List Char) : Option (Int × List Char) :=
    match Numeral.span cs with
    | ([], _) => none
    | (digits, rest) => some (sign * Numeral.value digits, rest)

/-- Nanoseconds from the digits after a point; those after the ninth count nothing. -/
def fraction? : List Char → Option (Nat × List Char)
  | '.' :: cs =>
    match Numeral.span cs with
    | ([], _) => none
    | (digits, rest) =>
      let kept := digits.take 9
      some (Numeral.value kept * Nat.pow 10 (9 - kept.length), rest)
  | cs => some (0, cs)

/-- Seconds east of UTC. -/
def zone? (cs : List Char) : Option (Int × List Char) :=
  match dropBlanks cs with
  | 'Z' :: rest => some (0, rest)
  | 'z' :: rest => some (0, rest)
  | '+' :: rest => offset 1 rest
  | '-' :: rest => offset (-1) rest
  | '\u2212' :: rest => offset (-1) rest
  | u :: t :: c :: rest =>
    if u.toUpper = 'U' ∧ t.toUpper = 'T' ∧ c.toUpper = 'C' then some (0, rest) else none
  | _ => none
where
  offset (sign : Int) : List Char → Option (Int × List Char)
    | h :: h' :: rest =>
      match rest.dropWhile fun c => c = ':' || isBlank c with
      | m :: m' :: rest =>
        let hours := Numeral.value [h, h']
        let minutes := Numeral.value [m, m']
        if [h, h', m, m'].all Char.isDigit ∧ hours ≤ 23 ∧ minutes ≤ 59 then
          some (sign * (hours * 3600 + minutes * 60), rest)
        else none
      | _ => none
    | _ => none

end Reader

open Reader in
def read? (cs : List Char) : Option Instant := do
  let (year, cs) ← year? cs
  let cs ← mark? '-' cs
  let (month, cs) ← number? 2 cs
  let cs ← mark? '-' cs
  let (day, cs) ← number? 2 cs
  let cs ← match cs with
    | 'T' :: cs | 't' :: cs | ' ' :: cs => some cs
    | _ => none
  let (hour, cs) ← number? 2 cs
  let cs ← mark? ':' cs
  let (minute, cs) ← number? 2 cs
  let cs ← mark? ':' cs
  let (second, cs) ← number? 2 cs
  let (nano, cs) ← fraction? cs
  let (east, cs) ← zone? cs
  let date : Date := ⟨year, month, day⟩
  guard (dropBlanks cs = [] ∧ leastYear ≤ year ∧ year ≤ greatestYear ∧ date.Exists)
  guard (hour ≤ 23 ∧ minute ≤ 59 ∧ second ≤ 60)
  let leap := second = 60
  let inDay := hour * 3600 + minute * 60 + (if leap then 59 else second)
  at? (date.toDays * secondsPerDay + inDay - east) (nano + if leap then 1000000000 else 0)

end EntityFlux.Instant
