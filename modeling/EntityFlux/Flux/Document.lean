import EntityFlux.Model.Literal
import EntityFlux.Text.Quoted

/-!
# Documents of option bindings

The values of a query's parameters travel beside its text, as a Flux file that binds a name to a
literal in each of its statements.
-/

namespace EntityFlux.Flux

/-- A literal of Flux. Integers and date-times are kept as text. -/
inductive Node where
  | string (value : String)
  | integer (text : String)
  | float (value : Binary64)
  | boolean (value : Bool)
  | duration (parts : List Span.Part)
  | dateTime (text : String)
deriving DecidableEq

namespace Node

def ofLiteral : Literal → Node
  | .string s => .string s
  | .integer i => .integer (Text.Numeral.ofInt i.toInt)
  | .float x => .float x
  | .duration span => .duration span.parts
  | .boolean b => .boolean b
  | .dateTime t => .dateTime t.text

/-- Flux text shows a fraction always, and a power of ten below 10^-4 and from 10^16 on. -/
def fractionLayout : Layout where
  plain e := -4 ≤ e && e < 16
  fraction := true
  plusSign := false
  tie := .up
  nan := "NaN"
  infinity negative := if negative then "-inf" else "inf"

def text : Node → String
  | .string value => Text.quote value
  | .integer text => text
  | .float value => fractionLayout.text value
  | .boolean value => Literal.booleanText value
  | .duration parts => Span.partsText parts
  | .dateTime text => text

end Node

/-- The statement `option name = value`. -/
structure Binding where
  name : String
  value : Node
deriving DecidableEq

def Binding.text (binding : Binding) : String :=
  "option " ++ binding.name ++ " = " ++ binding.value.text

structure Document where
  package : Option String := none
  imports : Option (List String) := none
  body : List Binding
deriving DecidableEq

namespace Document

/-- The value of the first binding of a name. -/
def find? (document : Document) (name : String) : Option Node :=
  (document.body.find? (·.name = name)).map (·.value)

/-- The value of the binding at a position, counted from 0. -/
def at? (document : Document) (position : Nat) : Option Node :=
  document.body[position]?.map (·.value)

/-- One statement a line. -/
def text (document : Document) : String :=
  "\n".intercalate (document.body.map Binding.text)

end Document

end EntityFlux.Flux
