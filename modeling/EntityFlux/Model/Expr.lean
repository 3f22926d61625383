import EntityFlux.Model.Literal

/-!
# Expressions

The expressions of a query over the members of an entity. Not all of them have a Flux form; the
others can be held so that they can be refused by name.
-/

namespace EntityFlux

inductive BinaryOp where
  | equal
  | notEqual
  | lessThan
  | lessThanOrEqual
  | greaterThan
  | greaterThanOrEqual
  | andAlso
  | orElse
  | add
  | subtract
  | multiply
  | divide
  | modulo
deriving DecidableEq, Repr

def BinaryOp.kind : BinaryOp → String
  | .equal => "Equal"
  | .notEqual => "NotEqual"
  | .lessThan => "LessThan"
  | .lessThanOrEqual => "LessThanOrEqual"
  | .greaterThan => "GreaterThan"
  | .greaterThanOrEqual => "GreaterThanOrEqual"
  | .andAlso => "AndAlso"
  | .orElse => "OrElse"
  | .add => "Add"
  | .subtract => "Subtract"
  | .multiply => "Multiply"
  | .divide => "Divide"
  | .modulo => "Modulo"

inductive Expr where
  | member (name : String)
  | constant (value : Literal)
  | binary (op : BinaryOp) (left right : Expr)
  | not (operand : Expr)
  | negate (operand : Expr)
  | call (method : String) (args : List Expr)
  | conditional (test ifTrue ifFalse : Expr)

def Expr.kind : Expr → String
  | .member _ => "MemberAccess"
  | .constant _ => "Constant"
  | .binary op _ _ => op.kind
  | .not _ => "Not"
  | .negate _ => "Negate"
  | .call _ _ => "Call"
  | .conditional _ _ _ => "Conditional"

end EntityFlux
