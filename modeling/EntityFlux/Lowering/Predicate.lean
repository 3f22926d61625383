import EntityFlux.Lowering.Event
import EntityFlux.Model.Expr
import EntityFlux.Schema.Basic

/-!
# Predicates

An expression becomes a Flux fragment in which members are columns of the record `r` and constants
are parameters. The parameters are numbered in reading order, behind those that are already bound.
Whatever the outcome, the constants met up to that point are bound.
-/

namespace EntityFlux

/-- How two operands are joined. -/
inductive Symbol where
  | comparison (text : String)
  | connective (text : String)
deriving DecidableEq, Repr

/-- The operands of a connective stand in parentheses, those of a comparison do not. -/
def Symbol.join : Symbol → String → String → String
  | .comparison text, left, right => left ++ " " ++ text ++ " " ++ right
  | .connective text, left, right => "(" ++ left ++ ") " ++ text ++ " (" ++ right ++ ")"

/-- Arithmetic has no Flux form here. -/
def BinaryOp.symbol? : BinaryOp → Option Symbol
  | .equal => some (.comparison "==")
  | .notEqual => some (.comparison "!=")
  | .lessThan => some (.comparison "<")
  | .lessThanOrEqual => some (.comparison "<=")
  | .greaterThan => some (.comparison ">")
  | .greaterThanOrEqual => some (.comparison ">=")
  | .andAlso => some (.connective "and")
  | .orElse => some (.connective "or")
  | .add | .subtract | .multiply | .divide | .modulo => none

/-- The constants that were bound, in order, and the fragment or the first reason to refuse. -/
structure Compiled where
  literals : List Literal
  result : Except Refusal String

/-- Compiles an expression behind `bound` earlier parameters. -/
def Expr.compile (entity : Entity) (bound : Nat) : Expr → Compiled
  | .member name => ⟨[], (entity.resolve name).map recordAccess⟩
  | .constant value => ⟨[value], .ok (parameterName (bound + 1))⟩
  | .binary op left right =>
    match op.symbol? with
    | none => ⟨[], .error (.unsupportedExpression op.kind)⟩
    | some symbol =>
      let l := left.compile entity bound
      match l.result with
      | .error refusal => ⟨l.literals, .error refusal⟩
      | .ok leftText =>
        let r := right.compile entity (bound + l.literals.length)
        ⟨l.literals ++ r.literals, r.result.map (symbol.join leftText)⟩
  | e => ⟨[], .error (.unsupportedExpression e.kind)⟩

end EntityFlux
