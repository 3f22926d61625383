/-!
# Binary floating point numbers

The 64-bit format, as the exact number it stands for: a sign, a significand below 2^53 and a power
of two. Whatever is not exact is rounded to the nearest such number, a half to the even one, by
`Binary64.ofRatio`; every other operation is an exact ratio passed to it.
-/

namespace EntityFlux

/-- `finite negative m e` stands for m · 2^e, with m < 2^53 and e ≥ -1074; m ≥ 2^52 unless e is
least. -/
inductive Binary64 where
  | finite (negative : Bool) (significand : Nat) (exponent : Int)
  | infinite (negative : Bool)
  | nan
deriving DecidableEq, Repr

namespace Binary64

/-- The leading bit of a significand: 2^52. -/
def hiddenBit : Nat := 4503599627370496

def leastExponent : Int := -1074

def greatestExponent : Int := 971

def zero (negative : Bool) : Binary64 := .finite negative 0 leastExponent

/-- The quotient rounded to the nearest whole number, a half to the even one. -/
def roundDiv (n d : Nat) : Nat :=
  let q := n / d
  let r := n % d
  if 2 * r > d ∨ (2 * r = d ∧ q % 2 = 1) then q + 1 else q

/-- The number nearest to `num / den`, for a positive `den`. -/
def ofRatio (negative : Bool) (num den : Nat) : Binary64 :=
  if num = 0 then zero negative
  else
    let guess : Int := num.log2 - den.log2 - 53
    let scaled (e : Int) : Nat × Nat :=
      (num * Nat.pow 2 (-e).toNat, den * Nat.pow 2 e.toNat)
    let fits (e : Int) : Bool := (scaled e).1 / (scaled e).2 < 2 * hiddenBit
    let e := max leastExponent (if fits guess then guess else guess + 1)
    let m := roundDiv (scaled e).1 (scaled e).2
    let (m, e) := if m = 2 * hiddenBit then (hiddenBit, e + 1) else (m, e)
    if e > greatestExponent then .infinite negative else .finite negative m e

def ofNat (n : Nat) : Binary64 := ofRatio false n 1

def ofInt (i : Int) : Binary64 := ofRatio (i < 0) i.natAbs 1

/-- The number nearest to `digits · 10^exponent`. Beyond the range of the format the power of ten
is never computed. -/
def ofDecimal (negative : Bool) (digits : Nat) (exponent : Int) : Binary64 :=
  if digits = 0 then zero negative
  else if exponent > 400 then .infinite negative
  else if exponent < -(digits.log2 : Int) - 400 then zero negative
  else ofRatio negative (digits * Nat.pow 10 exponent.toNat) (Nat.pow 10 (-exponent).toNat)

/-- The value of a finite number as a ratio, the sign left out. -/
def ratio (significand : Nat) (exponent : Int) : Nat × Nat :=
  (significand * Nat.pow 2 exponent.toNat, Nat.pow 2 (-exponent).toNat)

def isFinite : Binary64 → Bool
  | .finite .. => true
  | _ => false

/-- Multiplied by the number nearest to `10^power`. -/
def mulTenPow : Binary64 → Nat → Binary64
  | .finite negative m e, power =>
    match ofNat (Nat.pow 10 power) with
    | .finite _ m' e' =>
      let (n, d) := ratio m e
      let (n', d') := ratio m' e'
      ofRatio negative (n * n') (d * d')
    | other => other
  | other, _ => other

/-- Divided by the number nearest to `10^power`. -/
def divTenPow : Binary64 → Nat → Binary64
  | .finite negative m e, power =>
    match ofNat (Nat.pow 10 power) with
    | .finite _ m' e' =>
      let (n, d) := ratio m e
      let (n', d') := ratio m' e'
      ofRatio negative (n * d') (d * n')
    | _ => zero negative
  | other, _ => other

end Binary64

end EntityFlux
