/-!
# Why a query has no Flux form
-/

namespace EntityFlux

inductive Refusal where
  | unmappedMember (entity member : String)
  | unknownEntity (name : String)
  | unsupportedExpression (kind : String)
  | unsupportedOperator (name : String)
deriving DecidableEq, Repr

def Refusal.message : Refusal → String
  | .unmappedMember entity member =>
    "Member '" ++ member ++ "' of '" ++ entity ++ "' is not mapped to a column"
  | .unknownEntity name => "No schema registered for entity type: " ++ name
  | .unsupportedExpression kind => "Unsupported expression: " ++ kind
  | .unsupportedOperator name => name ++ " is not supported."

end EntityFlux
