import EntityFlux.Model.Expr

/-!
# Queries

A query names an entity, filters and orders its records clause by clause, selects members and then
applies operators to the result, all in the order in which they are given.
-/

namespace EntityFlux

inductive Direction where
  | ascending
  | descending
deriving DecidableEq, Repr

def Direction.isDescending : Direction → Bool
  | .ascending => false
  | .descending => true

structure SortKey where
  expr : Expr
  direction : Direction := .ascending

inductive Clause where
  | filter (predicate : Expr)
  | order (keys : List SortKey)

inductive Projection where
  | entity
  | members (names : List String)
deriving DecidableEq, Repr

inductive ResultOperator where
  | take (count : Expr)
  | skip (count : Expr)
  | count
  | longCount
  | first
  | last
  | single
  | min
  | max
  | sum
  | average
  | any
  | all (predicate : Expr)
  | distinct

def ResultOperator.name : ResultOperator → String
  | .take _ => "TakeResultOperator"
  | .skip _ => "SkipResultOperator"
  | .count => "CountResultOperator"
  | .longCount => "LongCountResultOperator"
  | .first => "FirstResultOperator"
  | .last => "LastResultOperator"
  | .single => "SingleResultOperator"
  | .min => "MinResultOperator"
  | .max => "MaxResultOperator"
  | .sum => "SumResultOperator"
  | .average => "AverageResultOperator"
  | .any => "AnyResultOperator"
  | .all _ => "AllResultOperator"
  | .distinct => "DistinctResultOperator"

structure Query where
  entity : String
  body : List Clause := []
  projection : Projection := .entity
  operators : List ResultOperator := []

namespace Query

def filter (query : Query) (predicate : Expr) : Query :=
  { query with body := query.body ++ [.filter predicate] }

def orderBy (query : Query) (key : SortKey) : Query :=
  { query with body := query.body ++ [.order [key]] }

/-- Adds a key to the last clause if that orders, and orders by it alone otherwise. -/
def thenBy (query : Query) (key : SortKey) : Query :=
  { query with body := extend query.body }
where
  extend : List Clause → List Clause
    | [] => [.order [key]]
    | [.order keys] => [.order (keys ++ [key])]
    | clause :: rest => clause :: extend rest

def select (query : Query) (members : List String) : Query :=
  { query with projection := .members members }

def apply (query : Query) (operator : ResultOperator) : Query :=
  { query with operators := query.operators ++ [operator] }

def take (query : Query) (count : Int64) : Query :=
  query.apply (.take (.constant (.integer count)))

def skip (query : Query) (count : Int64) : Query :=
  query.apply (.skip (.constant (.integer count)))

def count (query : Query) : Query := query.apply .count

end Query

end EntityFlux
