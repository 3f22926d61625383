import EntityFlux.Calendar.Instant
import EntityFlux.Decimal.Layout
import EntityFlux.Span

/-!
# Literals

The constants of a query.
-/

namespace EntityFlux

inductive Literal where
  | string (s : String)
  | integer (i : Int64)
  | float (x : Binary64)
  | duration (span : Span)
  | boolean (b : Bool)
  | dateTime (t : Instant)
deriving DecidableEq

namespace Literal

def kind : Literal → String
  | .string _ => "string"
  | .integer _ => "integer"
  | .float _ => "float"
  | .duration _ => "duration"
  | .boolean _ => "boolean"
  | .dateTime _ => "datetime"

def booleanText (b : Bool) : String := if b then "true" else "false"

/-- Running text never uses a power of ten, and whole numbers show no fraction. -/
def inlineLayout : Layout where
  plain _ := true
  fraction := false
  plusSign := false
  tie := .up
  nan := "NaN"
  infinity negative := if negative then "-inf" else "inf"

/-- The literal within running text. -/
def inline : Literal → String
  | .string s => s
  | .integer i => Text.Numeral.ofInt i.toInt
  | .float x => inlineLayout.text x
  | .duration span => span.text
  | .boolean b => booleanText b
  | .dateTime t => t.text

end Literal

end EntityFlux
