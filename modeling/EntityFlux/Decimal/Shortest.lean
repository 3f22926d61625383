import EntityFlux.Decimal.Binary64

/-!
# Shortest decimals

Of the decimals that round to a given binary number, those with the fewest digits, and of these
the one nearest to it. The search goes through the decimal grids from coarse to fine; on each only
the two neighbours of the number can be the nearest, and all comparisons are exact.
-/

namespace EntityFlux

/-- The number `digits · 10^exponent`. -/
structure Decimal where
  digits : Nat
  exponent : Int
deriving DecidableEq, Repr

/-- Which of two equally near decimals is taken. -/
inductive Decimal.Tie where
  | toEven
  | up
deriving DecidableEq, Repr

namespace Decimal

/-- The same number without zeros at the end of its digits. -/
def trim : Nat → Decimal → Decimal
  | 0, d => d
  | fuel + 1, d =>
    if d.digits ≠ 0 ∧ d.digits % 10 = 0 then trim fuel ⟨d.digits / 10, d.exponent + 1⟩ else d

/-- The interval of numbers that round to `m · 2^e`, and that number between its ends, all over one
denominator. -/
structure Interval where
  low : Nat
  mid : Nat
  high : Nat
  den : Nat
  /-- Whether the ends belong to it. -/
  closed : Bool

def Interval.around (m : Nat) (e : Int) : Interval :=
  let below := if m = Binary64.hiddenBit ∧ e > Binary64.leastExponent then 1 else 2
  let scale := Nat.pow 2 (e - 2).toNat
  { low := (4 * m - below) * scale
    mid := 4 * m * scale
    high := (4 * m + 2) * scale
    den := Nat.pow 2 (2 - e).toNat
    closed := m % 2 = 0 }

/-- The greatest `k` with `10^k ≤ num / den`. -/
def leadingPower (num den : Nat) : Int :=
  if den ≤ num then ((Nat.toDigits 10 (num / den)).length : Int) - 1
  else
    let k := (Nat.toDigits 10 (den / num)).length - 1
    if den ≤ num * Nat.pow 10 k then -(k : Int) else -(k : Int) - 1

/-- The decimal on the grid of multiples of `10^k` that is nearest to the middle of `i`, if one of
the middle's two neighbours lies in `i`. -/
def Interval.nearest? (i : Interval) (tie : Tie) (k : Int) : Option Decimal :=
  let up := Nat.pow 10 (-k).toNat
  let unit := i.den * Nat.pow 10 k.toNat
  let inside (c : Nat) : Bool :=
    let low := i.low * up
    let high := i.high * up
    if i.closed then low ≤ c * unit && c * unit ≤ high else low < c * unit && c * unit < high
  let floor := i.mid * up / unit
  let rest := i.mid * up % unit
  let ceil := if rest = 0 then floor else floor + 1
  match inside floor, inside ceil with
  | false, false => none
  | true, false => some ⟨floor, k⟩
  | false, true => some ⟨ceil, k⟩
  | true, true =>
    if 2 * rest < unit then some ⟨floor, k⟩
    else if unit < 2 * rest then some ⟨ceil, k⟩
    else
      match tie with
      | .up => some ⟨ceil, k⟩
      | .toEven => some ⟨if floor % 2 = 0 then floor else ceil, k⟩

/-- Tries grids that are ever finer, from `10^k` on. -/
def Interval.search (i : Interval) (tie : Tie) : Nat → Int → Decimal
  | 0, k => ⟨i.mid, k⟩
  | fuel + 1, k => (i.nearest? tie k).getD (i.search tie fuel (k - 1))

/-- The shortest decimal for `m · 2^e`. Seventeen digits always suffice. -/
def shortest (tie : Tie) (m : Nat) (e : Int) : Decimal :=
  if m = 0 then ⟨0, 0⟩
  else
    let i := Interval.around m e
    trim 20 (i.search tie 18 (leadingPower i.mid i.den))

end Decimal

end EntityFlux
