import EntityFlux.Json.Value
import EntityFlux.Text.Numeral

/-!
# JSON numbers

A number without point and exponent is whole if it fits into 64 bits, signed below zero and
unsigned above. All others are binary fractions, computed from the leading digits that fit into 64
bits by one multiplication or division with a power of ten, so the last digit of a long number may
come out one off. A number beyond the greatest fraction is unusable.
-/

namespace EntityFlux.Json.Number

open EntityFlux.Text

/-- The parts of a number as it is written. -/
structure Token where
  negative : Bool
  whole : List Char
  fraction : List Char
  /-- The written power of ten, 0 if there is none. -/
  exponent : Int
  /-- Whether there is neither point nor exponent. -/
  isWhole : Bool

def digits? (cs : List Char) : Option (List Char × List Char) :=
  match Numeral.span cs with
  | ([], _) => none
  | split => some split

def whole? (cs : List Char) : Option (List Char × List Char) :=
  match digits? cs with
  | some ('0' :: _ :: _, _) => none
  | split => split

def fraction? : List Char → Option (Option (List Char) × List Char)
  | '.' :: cs => (digits? cs).map fun (digits, rest) => (some digits, rest)
  | cs => some (none, cs)

def exponent? : List Char → Option (Option Int × List Char)
  | 'e' :: cs | 'E' :: cs =>
    match cs with
    | '-' :: cs => (digits? cs).map fun (digits, rest) => (some (-Numeral.value digits), rest)
    | '+' :: cs => (digits? cs).map fun (digits, rest) => (some (Numeral.value digits), rest)
    | cs => (digits? cs).map fun (digits, rest) => (some (Numeral.value digits), rest)
  | cs => some (none, cs)

def token? (cs : List Char) : Option (Token × List Char) := do
  let (negative, cs) := match cs with
    | '-' :: cs => (true, cs)
    | cs => (false, cs)
  let (whole, cs) ← whole? cs
  let (fraction, cs) ← fraction? cs
  let (exponent, cs) ← exponent? cs
  some (⟨negative, whole, fraction.getD [], exponent.getD 0, fraction.isNone && exponent.isNone⟩, cs)

/-- One more than the greatest number of 64 bits. -/
def wordLimit : Nat := 18446744073709551616

/-- Appends digits to a number as long as it stays below 2^64; the second part is how many digits
were left out. -/
def absorb : Nat → List Char → Nat × Nat
  | n, [] => (n, 0)
  | n, c :: cs =>
    let next := 10 * n + (c.toNat - '0'.toNat)
    if next < wordLimit then absorb next cs else (n, cs.length + 1)

/-- `significand · 10^exponent`, rounded once for each factor. Powers below 10^-308 take two
divisions, and two leave nothing below 10^-616. -/
def scale? (negative : Bool) (significand : Nat) (exponent : Int) : Option Binary64 :=
  let f := Binary64.ofRatio negative significand 1
  if significand = 0 then some f
  else if 308 < exponent then none
  else if 0 ≤ exponent then
    let product := f.mulTenPow exponent.toNat
    if product.isFinite then some product else none
  else if -308 ≤ exponent then some (f.divTenPow (-exponent).toNat)
  else if -616 ≤ exponent then some ((f.divTenPow 308).divTenPow (-exponent - 308).toNat)
  else some (Binary64.zero negative)

def Token.float (t : Token) : Json :=
  let (wholePart, cut) := absorb 0 t.whole
  let (significand, unused) := absorb wholePart t.fraction
  let exponent := t.exponent + cut - (t.fraction.length - unused : Nat)
  match scale? t.negative significand exponent with
  | some x => .float x
  | none => .unusable

def Token.json (t : Token) : Json :=
  let n := Numeral.value t.whole
  if ¬ t.isWhole then t.float
  else if t.negative then (if 0 < n ∧ 2 * n ≤ wordLimit then .int (-n) else t.float)
  else if n < wordLimit then .int n
  else t.float

def read? (cs : List Char) : Option (Json × List Char) :=
  (token? cs).map fun (token, rest) => (token.json, rest)

end EntityFlux.Json.Number
