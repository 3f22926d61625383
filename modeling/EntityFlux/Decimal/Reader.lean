import EntityFlux.Decimal.Binary64
import EntityFlux.Text.Numeral

/-!
# Reading decimal numbers

A sign, digits with a point anywhere among them, and a power of ten, or the words for the values
that have no digits. The result is the nearest binary number.
-/

namespace EntityFlux.Binary64

open EntityFlux.Text

def power? : List Char → Option Int
  | [] => some 0
  | e :: cs =>
    if e = 'e' ∨ e = 'E' then
      match cs with
      | '-' :: cs => (whole? cs).map fun n => -n
      | '+' :: cs => whole? cs
      | cs => whole? cs
    else none
where
  whole? (cs : List Char) : Option Int :=
    if cs ≠ [] ∧ cs.all Char.isDigit then some (Numeral.value cs) else none

def unsigned? (negative : Bool) (cs : List Char) : Option Binary64 :=
  let word := String.ofList (cs.map Char.toLower)
  if word = "nan" then some .nan
  else if word = "inf" ∨ word = "infinity" then some (.infinite negative)
  else do
    let (whole, cs) := Numeral.span cs
    let (fraction, cs) := match cs with
      | '.' :: cs => Numeral.span cs
      | cs => ([], cs)
    let power ← power? cs
    if whole = [] ∧ fraction = [] then none
    else some (ofDecimal negative (Numeral.value (whole ++ fraction)) (power - fraction.length))

def read? (text : String) : Option Binary64 :=
  match text.toList with
  | '-' :: cs => unsigned? true cs
  | '+' :: cs => unsigned? false cs
  | cs => unsigned? false cs

end EntityFlux.Binary64
