import EntityFlux.Text.Numeral

/-!
# Time spans

A length of time in nanoseconds, positive or negative, and its division into units: as many days as
fit, then as many hours, and so on down to nanoseconds, with no part for a unit that does not occur.
-/

namespace EntityFlux

/-- The greatest length, in nanoseconds: 2^63 - 1 milliseconds. -/
def Span.limit : Nat := 9223372036854775807 * 1000000

structure Span where
  nanos : Int
  bounded : nanos.natAbs ≤ Span.limit
deriving DecidableEq

namespace Span

def ofNanos? (nanos : Int) : Option Span :=
  if bounded : nanos.natAbs ≤ limit then some ⟨nanos, bounded⟩ else none

def ofInt64 (nanos : Int64) : Span where
  nanos := nanos.toInt
  bounded := by
    have := nanos.toInt_lt
    have := nanos.le_toInt
    simp only [limit]
    omega

/-- The number of nanoseconds, if it is a 64-bit integer. -/
def toInt64? (s : Span) : Option Int64 :=
  if Int64.minValue.toInt ≤ s.nanos ∧ s.nanos ≤ Int64.maxValue.toInt then some (Int64.ofInt s.nanos)
  else none

/-- One number with its unit, as in `30m`. -/
structure Part where
  magnitude : Int64
  unit : String
deriving DecidableEq, Repr

/-- The units of a second or more with their lengths in seconds, longest first. -/
def longUnits : List (Int64 × String) := [(86400, "d"), (3600, "h"), (60, "m"), (1, "s")]

/-- The units below a second with their lengths in nanoseconds, longest first. -/
def shortUnits : List (Int64 × String) := [(1000000, "ms"), (1000, "us"), (1, "ns")]

/-- How many whole seconds the length has, whatever its sign. -/
def seconds (s : Span) : Int64 := Int64.ofNat (s.nanos.natAbs / 1000000000)

/-- The nanoseconds beyond the whole seconds. -/
def subseconds (s : Span) : Int64 := Int64.ofNat (s.nanos.natAbs % 1000000000)

def sign (s : Span) : Int64 := if s.nanos < 0 then -1 else 1

/-- How many times each unit fits into what the longer ones left over, with a sign on each number. -/
def divide (sign : Int64) : List (Int64 × String) → Int64 → List Part
  | [], _ => []
  | (length, unit) :: shorter, n =>
    if length ≤ n then ⟨sign * (n / length), unit⟩ :: divide sign shorter (n % length)
    else divide sign shorter n

/-- The parts of a span, each with its sign; nothing at all is zero seconds. -/
def parts (s : Span) : List Part :=
  match divide s.sign longUnits s.seconds ++ divide s.sign shortUnits s.subseconds with
  | [] => [⟨0, "s"⟩]
  | parts => parts

/-- One sign for all parts, then each part without its sign. -/
def partsText (parts : List Part) : String :=
  let body := parts.map fun part => Text.Numeral.ofInt part.magnitude.abs.toInt ++ part.unit
  (if parts.any (·.magnitude < 0) then "-" else "") ++ String.join body

def text (s : Span) : String := partsText s.parts

end Span

end EntityFlux
