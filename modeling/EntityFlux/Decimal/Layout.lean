import EntityFlux.Decimal.Shortest
import EntityFlux.Text.Numeral

/-!
# Layouts of decimal numbers

How the digits of a number are set out: which magnitudes are written plainly and which with a power
of ten, and what stands for the values that have no digits.
-/

namespace EntityFlux

structure Layout where
  /-- Whether a number whose leading digit counts `10^e` is written without a power of ten. -/
  plain : Int → Bool
  /-- Whether a whole number shows a fraction, as in `5.0`. -/
  fraction : Bool
  /-- Whether a positive power of ten shows its sign. -/
  plusSign : Bool
  tie : Decimal.Tie
  nan : String
  infinity : Bool → String

namespace Layout

def plainText (layout : Layout) (digits : List Char) (exponent : Int) : String :=
  if exponent < 0 then
    String.ofList (['0', '.'] ++ List.replicate (-exponent - 1).toNat '0' ++ digits)
  else
    let whole := exponent.toNat + 1
    if digits.length ≤ whole then
      String.ofList (digits ++ List.replicate (whole - digits.length) '0')
        ++ (if layout.fraction then ".0" else "")
    else String.ofList (digits.take whole ++ '.' :: digits.drop whole)

def powerText (layout : Layout) (digits : List Char) (exponent : Int) : String :=
  let mantissa :=
    match digits with
    | first :: second :: rest => String.ofList (first :: '.' :: second :: rest)
    | digits => String.ofList digits
  let sign := if exponent < 0 then "-" else if layout.plusSign then "+" else ""
  mantissa ++ "e" ++ sign ++ Text.Numeral.ofNat exponent.natAbs

/-- The text of a number from its decimal digits. -/
def decimalText (layout : Layout) (d : Decimal) : String :=
  let digits := Nat.toDigits 10 d.digits
  let exponent := d.exponent + digits.length - 1
  if layout.plain exponent then layout.plainText digits exponent
  else layout.powerText digits exponent

def text (layout : Layout) : Binary64 → String
  | .finite negative m e =>
    (if negative then "-" else "") ++ layout.decimalText (Decimal.shortest layout.tie m e)
  | .infinite negative => layout.infinity negative
  | .nan => layout.nan

end Layout

end EntityFlux
