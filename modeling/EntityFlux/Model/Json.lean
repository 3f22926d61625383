import EntityFlux.Calendar.Reader
import EntityFlux.Json.Decode
import EntityFlux.Model.Query

/-!
# Queries as JSON

Literals are written as a type beside a value, all other choices as a tag among the fields of the
chosen case. Every field is written, also one that holds its default.
-/

namespace EntityFlux

open Json (Rules)
open Json.Decode

namespace Literal

def words : List String := ["string", "integer", "float", "duration", "boolean", "date_time"]

def ofJson? (rules : Rules) (json : Json) : Option Literal := do
  let (word, content) ← tagAndContent rules words "type" "value" json
  let value ← content
  match word with
  | "string" => (string? value).map .string
  | "integer" => (int64? value).map .integer
  | "float" => (float? value).map .float
  | "duration" => (int64? value).map fun nanos => .duration (Span.ofInt64 nanos)
  | "boolean" => (bool? value).map .boolean
  | "date_time" => do
    let text ← string? value
    (Instant.read? text.toList).map .dateTime
  | _ => none

def typed (word : String) (value : Json) : Json := .obj [("type", .str word), ("value", value)]

def json : Literal → Json
  | .string s => typed "string" (.str s)
  | .integer i => typed "integer" (.int i.toInt)
  | .float x => typed "float" (.float x)
  | .duration span => typed "duration" (.int span.nanos)
  | .boolean b => typed "boolean" (.bool b)
  | .dateTime t => typed "date_time" (.str t.text)

inductive WriteError where
  | durationTooLong
deriving DecidableEq, Repr

def WriteError.message : WriteError → String
  | .durationTooLong => "duration does not fit in i64 nanoseconds"

/-- The JSON form of a literal, unless it could not be read back. -/
def write (value : Literal) : Except WriteError Json :=
  match value with
  | .duration span => if span.toInt64?.isSome then .ok value.json else .error .durationTooLong
  | _ => .ok value.json

end Literal

namespace BinaryOp

def all : List BinaryOp :=
  [.equal, .notEqual, .lessThan, .lessThanOrEqual, .greaterThan, .greaterThanOrEqual, .andAlso,
   .orElse, .add, .subtract, .multiply, .divide, .modulo]

def word : BinaryOp → String
  | .equal => "equal"
  | .notEqual => "not_equal"
  | .lessThan => "less_than"
  | .lessThanOrEqual => "less_than_or_equal"
  | .greaterThan => "greater_than"
  | .greaterThanOrEqual => "greater_than_or_equal"
  | .andAlso => "and_also"
  | .orElse => "or_else"
  | .add => "add"
  | .subtract => "subtract"
  | .multiply => "multiply"
  | .divide => "divide"
  | .modulo => "modulo"

def ofJson? (rules : Rules) (json : Json) : Option BinaryOp := do
  let word ← word? rules (all.map (·.word)) json
  all.find? (·.word = word)

end BinaryOp

namespace Expr

def cases : List (String × List String) :=
  [("member", ["name"]), ("constant", ["value"]), ("binary", ["op", "left", "right"]),
   ("not", ["operand"]), ("negate", ["operand"]), ("call", ["method", "args"]),
   ("conditional", ["test", "if_true", "if_false"])]

/-- Reads an expression that is nested at most `fuel` deep. -/
def decode? : Nat → Rules → Json → Option Expr
  | 0, _, _ => none
  | fuel + 1, rules, json => do
    let part := required (decode? fuel .inCase)
    let (kind, fields) ← tagged rules "kind" cases json
    match kind, fields with
    | "member", [name] => (required string? name).map .member
    | "constant", [value] => (required (Literal.ofJson? .inCase) value).map .constant
    | "binary", [op, left, right] => do
      let op ← required (BinaryOp.ofJson? .inCase) op
      let left ← part left
      let right ← part right
      some (.binary op left right)
    | "not", [operand] => (part operand).map .not
    | "negate", [operand] => (part operand).map .negate
    | "call", [method, args] => do
      let method ← required string? method
      let args ← required (list? (decode? fuel .inCase)) args
      some (.call method args)
    | "conditional", [test, ifTrue, ifFalse] => do
      let test ← part test
      let ifTrue ← part ifTrue
      let ifFalse ← part ifFalse
      some (.conditional test ifTrue ifFalse)
    | _, _ => none

def ofJson? (rules : Rules) (json : Json) : Option Expr := decode? (json.depth + 1) rules json

mutual

def json : Expr → Json
  | .member name => .obj [("kind", .str "member"), ("name", .str name)]
  | .constant value => .obj [("kind", .str "constant"), ("value", value.json)]
  | .binary op left right =>
    .obj [("kind", .str "binary"), ("op", .str op.word), ("left", left.json), ("right", right.json)]
  | .not operand => .obj [("kind", .str "not"), ("operand", operand.json)]
  | .negate operand => .obj [("kind", .str "negate"), ("operand", operand.json)]
  | .call method args =>
    .obj [("kind", .str "call"), ("method", .str method), ("args", .arr (jsons args))]
  | .conditional test ifTrue ifFalse =>
    .obj [("kind", .str "conditional"), ("test", test.json), ("if_true", ifTrue.json),
      ("if_false", ifFalse.json)]

def jsons : List Expr → List Json
  | [] => []
  | e :: es => e.json :: jsons es

end

end Expr

namespace Direction

def word : Direction → String
  | .ascending => "ascending"
  | .descending => "descending"

def ofJson? (rules : Rules) (json : Json) : Option Direction := do
  match ← word? rules ["ascending", "descending"] json with
  | "ascending" => some .ascending
  | "descending" => some .descending
  | _ => none

end Direction

namespace SortKey

/-- A key always stands inside a clause. -/
def ofJson? (json : Json) : Option SortKey := do
  match ← fields .inCase ["expr", "direction"] json with
  | [expr, direction] => do
    let expr ← required (Expr.ofJson? .inCase) expr
    let direction ← defaulted .ascending (Direction.ofJson? .inCase) direction
    some { expr, direction }
  | _ => none

def json (key : SortKey) : Json :=
  .obj [("expr", key.expr.json), ("direction", .str key.direction.word)]

end SortKey

namespace Clause

def cases : List (String × List String) := [("where", ["predicate"]), ("order_by", ["orderings"])]

def ofJson? (json : Json) : Option Clause := do
  match ← tagged .document "clause" cases json with
  | ("where", [predicate]) => (required (Expr.ofJson? .inCase) predicate).map .filter
  | ("order_by", [keys]) => (required (list? SortKey.ofJson?) keys).map .order
  | _ => none

def json : Clause → Json
  | .filter predicate => .obj [("clause", .str "where"), ("predicate", predicate.json)]
  | .order keys => .obj [("clause", .str "order_by"), ("orderings", .arr (keys.map SortKey.json))]

end Clause

namespace Projection

def cases : List (String × List String) := [("entity", []), ("members", ["members"])]

def ofJson? (json : Json) : Option Projection := do
  match ← tagged .document "projection" cases json with
  | ("entity", []) => some .entity
  | ("members", [names]) => (required (list? string?) names).map .members
  | _ => none

def json : Projection → Json
  | .entity => .obj [("projection", .str "entity")]
  | .members names =>
    .obj [("projection", .str "members"), ("members", .arr (names.map Json.str))]

end Projection

namespace ResultOperator

def cases : List (String × List String) :=
  [("take", ["count"]), ("skip", ["count"]), ("count", []), ("long_count", []), ("first", []),
   ("last", []), ("single", []), ("min", []), ("max", []), ("sum", []), ("average", []),
   ("any", []), ("all", ["predicate"]), ("distinct", [])]

def ofJson? (json : Json) : Option ResultOperator := do
  match ← tagged .document "operator" cases json with
  | ("take", [n]) => (required (Expr.ofJson? .inCase) n).map .take
  | ("skip", [n]) => (required (Expr.ofJson? .inCase) n).map .skip
  | ("count", []) => some .count
  | ("long_count", []) => some .longCount
  | ("first", []) => some .first
  | ("last", []) => some .last
  | ("single", []) => some .single
  | ("min", []) => some .min
  | ("max", []) => some .max
  | ("sum", []) => some .sum
  | ("average", []) => some .average
  | ("any", []) => some .any
  | ("all", [predicate]) => (required (Expr.ofJson? .inCase) predicate).map .all
  | ("distinct", []) => some .distinct
  | _ => none

def json : ResultOperator → Json
  | .take n => .obj [("operator", .str "take"), ("count", n.json)]
  | .skip n => .obj [("operator", .str "skip"), ("count", n.json)]
  | .count => plain "count"
  | .longCount => plain "long_count"
  | .first => plain "first"
  | .last => plain "last"
  | .single => plain "single"
  | .min => plain "min"
  | .max => plain "max"
  | .sum => plain "sum"
  | .average => plain "average"
  | .any => plain "any"
  | .all predicate => .obj [("operator", .str "all"), ("predicate", predicate.json)]
  | .distinct => plain "distinct"
where
  plain (word : String) : Json := .obj [("operator", .str word)]

end ResultOperator

namespace Query

def entityOfJson? (json : Json) : Option String := do
  match ← fields .document ["entity"] json with
  | [name] => required string? name
  | _ => none

def ofJson? (json : Json) : Option Query := do
  match ← fields .document ["from", "body", "select", "result_operators"] json with
  | [source, body, projection, operators] => do
    let entity ← required entityOfJson? source
    let body ← defaulted [] (list? Clause.ofJson?) body
    let projection ← defaulted .entity Projection.ofJson? projection
    let operators ← defaulted [] (list? ResultOperator.ofJson?) operators
    some { entity, body, projection, operators }
  | _ => none

def json (query : Query) : Json :=
  .obj [("from", .obj [("entity", .str query.entity)]),
    ("body", .arr (query.body.map Clause.json)),
    ("select", query.projection.json),
    ("result_operators", .arr (query.operators.map ResultOperator.json))]

end Query

end EntityFlux
