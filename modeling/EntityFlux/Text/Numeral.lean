/-!
# Numerals

Numbers as runs of decimal digits: writing them, padding them to a width, and cutting the run of
digits off the front of a text.
-/

namespace EntityFlux.Text.Numeral

def ofNat (n : Nat) : String := String.ofList (Nat.toDigits 10 n)

def ofInt : Int → String
  | .ofNat n => ofNat n
  | .negSucc n => "-" ++ ofNat (n + 1)

/-- At least `width` digits, filled up with zeros in front. -/
def padded (width n : Nat) : String :=
  let digits := Nat.toDigits 10 n
  String.ofList (List.replicate (width - digits.length) '0' ++ digits)

def value (digits : List Char) : Nat := Nat.ofDigitChars 10 digits 0

/-- The longest run of digits in front, and what follows it. -/
def span (cs : List Char) : List Char × List Char :=
  (cs.takeWhile Char.isDigit, cs.dropWhile Char.isDigit)

/-- The longest run of at most `most` digits in front, and what follows it. -/
def spanUpTo : Nat → List Char → List Char × List Char
  | 0, cs => ([], cs)
  | _, [] => ([], [])
  | most + 1, c :: cs =>
    if c.isDigit then
      let (digits, rest) := spanUpTo most cs
      (c :: digits, rest)
    else ([], c :: cs)

theorem span_append (cs : List Char) : (span cs).1 ++ (span cs).2 = cs :=
  List.takeWhile_append_dropWhile

theorem spanUpTo_append (most : Nat) (cs : List Char) :
    (spanUpTo most cs).1 ++ (spanUpTo most cs).2 = cs := by
  induction most generalizing cs with
  | zero => simp [spanUpTo]
  | succ most ih =>
    cases cs with
    | nil => simp [spanUpTo]
    | cons c cs =>
      by_cases h : c.isDigit
      · simp [spanUpTo, h, ih]
      · simp [spanUpTo, h]

def hexDigit? (c : Char) : Option Nat :=
  if c.isDigit then some (c.toNat - '0'.toNat)
  else if 'a' ≤ c ∧ c ≤ 'f' then some (c.toNat - 'a'.toNat + 10)
  else if 'A' ≤ c ∧ c ≤ 'F' then some (c.toNat - 'A'.toNat + 10)
  else none

/-- The number written by exactly `count` hexadecimal digits in front, and what follows them. -/
def hex? : Nat → List Char → Nat → Option (Nat × List Char)
  | 0, cs, value => some (value, cs)
  | _ + 1, [], _ => none
  | count + 1, c :: cs, value => do
    let digit ← hexDigit? c
    hex? count cs (16 * value + digit)

end EntityFlux.Text.Numeral
