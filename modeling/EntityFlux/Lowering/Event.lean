import EntityFlux.Model.Literal

/-!
# Events

What happens on the way from a query to an answer, in the order in which it happens, each event
with one line of text.
-/

namespace EntityFlux

/-- The name of the parameter at a position, counted from 1. -/
def parameterName (position : Nat) : String := "p" ++ Text.Numeral.ofNat position

inductive Event where
  | registered (position : Nat) (value : Literal)
  | compiledFilter (fragment : String)
  | offsetLost (offset : String)
  | rendered (stages : Nat) (query : String)
  | finished (parameters : Nat)
  | executed (entity : String) (rows : Nat)
deriving DecidableEq

namespace Event

def text : Event → String
  | .registered position value =>
    "DEBUG Registered query parameter name=" ++ parameterName position ++ " kind=" ++ value.kind
      ++ " value=" ++ value.inline
  | .compiledFilter fragment => "DEBUG Compiled where clause filter=" ++ fragment
  | .offsetLost offset =>
    "WARN Skip without Take: offset is dropped from the pipeline offset=" ++ offset
  | .rendered stages query =>
    "DEBUG Rendered Flux pipeline stages=" ++ Text.Numeral.ofNat stages ++ " query=" ++ query
  | .finished parameters => "DEBUG Translated query parameters=" ++ Text.Numeral.ofNat parameters
  | .executed entity rows =>
    "INFO Executed Flux query entity=" ++ entity ++ " rows=" ++ Text.Numeral.ofNat rows

/-- The registrations of literals behind `bound` earlier ones. -/
def registrations (bound : Nat) : List Literal → List Event
  | [] => []
  | value :: rest => .registered (bound + 1) value :: registrations (bound + 1) rest

end Event

end EntityFlux
