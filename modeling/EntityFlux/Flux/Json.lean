import EntityFlux.Flux.Pipeline
import EntityFlux.Flux.Request
import EntityFlux.Json.Decode

/-!
# Documents and requests as JSON

Every part of a document names its type. Reading asks for the type where there is a choice and
passes over it elsewhere.
-/

namespace EntityFlux

open Json (Rules)
open Json.Decode

namespace Span.Part

/-- A part always stands inside a statement. -/
def ofJson? (json : Json) : Option Part := do
  match ← fields .inCase ["magnitude", "unit"] json with
  | [magnitude, unit] => do
    let magnitude ← required int64? magnitude
    let unit ← required string? unit
    some { magnitude, unit }
  | _ => none

def json (part : Part) : Json :=
  .obj [("magnitude", .int part.magnitude.toInt), ("unit", .str part.unit)]

end Span.Part

namespace Flux

namespace Node

def cases : List (String × List String) :=
  [("StringLiteral", ["value"]), ("IntegerLiteral", ["value"]), ("FloatLiteral", ["value"]),
   ("BooleanLiteral", ["value"]), ("DurationLiteral", ["values"]), ("DateTimeLiteral", ["value"])]

def ofJson? (json : Json) : Option Node := do
  match ← tagged .inCase "type" cases json with
  | ("StringLiteral", [value]) => (required string? value).map .string
  | ("IntegerLiteral", [value]) => (required string? value).map .integer
  | ("FloatLiteral", [value]) => (required float? value).map .float
  | ("BooleanLiteral", [value]) => (required bool? value).map .boolean
  | ("DurationLiteral", [parts]) => (required (list? Span.Part.ofJson?) parts).map .duration
  | ("DateTimeLiteral", [value]) => (required string? value).map .dateTime
  | _ => none

def json : Node → Json
  | .string value => typed "StringLiteral" (.str value)
  | .integer text => typed "IntegerLiteral" (.str text)
  | .float value => typed "FloatLiteral" (.float value)
  | .boolean value => typed "BooleanLiteral" (.bool value)
  | .duration parts =>
    .obj [("type", .str "DurationLiteral"), ("values", .arr (parts.map Span.Part.json))]
  | .dateTime text => typed "DateTimeLiteral" (.str text)
where
  typed (type : String) (value : Json) : Json := .obj [("type", .str type), ("value", value)]

end Node

namespace Binding

def nameOfJson? (json : Json) : Option String := do
  match ← fields .inCase ["name"] json with
  | [name] => required string? name
  | _ => none

def assignmentOfJson? (json : Json) : Option Binding := do
  match ← fields .inCase ["id", "init"] json with
  | [id, init] => do
    let name ← required nameOfJson? id
    let value ← required Node.ofJson? init
    some { name, value }
  | _ => none

def ofJson? (json : Json) : Option Binding := do
  match ← tagged .document "type" [("OptionStatement", ["assignment"])] json with
  | (_, [assignment]) => required assignmentOfJson? assignment
  | _ => none

def json (binding : Binding) : Json :=
  .obj [("type", .str "OptionStatement"),
    ("assignment", .obj [("type", .str "VariableAssignment"),
      ("id", .obj [("type", .str "Identifier"), ("name", .str binding.name)]),
      ("init", binding.value.json)])]

end Binding

namespace Document

def ofJson? (json : Json) : Option Document := do
  match ← fields .document ["package", "imports", "body"] json with
  | [package, imports, body] => do
    let package ← defaulted none (nullable? string?) package
    let imports ← defaulted none (nullable? (list? string?)) imports
    let body ← required (list? Binding.ofJson?) body
    some { package, imports, body }
  | _ => none

def json (document : Document) : Json :=
  .obj [("type", .str "File"),
    ("package", (document.package.map Json.str).getD .null),
    ("imports", (document.imports.map fun names => Json.arr (names.map Json.str)).getD .null),
    ("body", .arr (document.body.map Binding.json))]

end Document

def ResultFunction.ofJson? (json : Json) : Option ResultFunction := do
  match ← word? .document ["none", "count"] json with
  | "none" => some .none
  | "count" => some .count
  | _ => none

namespace HeaderRow

def word : HeaderRow → String
  | .datatype => "datatype"
  | .group => "group"
  | .default => "default"

def ofJson? (json : Json) : Option HeaderRow := do
  match ← word? .document ["datatype", "group", "default"] json with
  | "datatype" => some .datatype
  | "group" => some .group
  | "default" => some .default
  | _ => none

end HeaderRow

namespace Dialect

def ofJson? (json : Json) : Option Dialect := do
  match ← fields .document ["header", "delimiter", "commentPrefix", "annotations"] json with
  | [header, delimiter, commentMark, rows] => do
    let header ← required bool? header
    let delimiter ← required string? delimiter
    let commentMark ← required string? commentMark
    let rows ← required (list? HeaderRow.ofJson?) rows
    some { header, delimiter, commentMark, rows }
  | _ => none

def json (dialect : Dialect) : Json :=
  .obj [("header", .bool dialect.header), ("delimiter", .str dialect.delimiter),
    ("commentPrefix", .str dialect.commentMark),
    ("annotations", .arr (dialect.rows.map fun row => .str row.word))]

end Dialect

namespace Request

def ofJson? (json : Json) : Option Request := do
  match ← fields .document ["query", "extern", "dialect"] json with
  | [query, bindings, dialect] => do
    let query ← required string? query
    let bindings ← required Document.ofJson? bindings
    let dialect ← required Dialect.ofJson? dialect
    some { query, bindings, dialect }
  | _ => none

def json (request : Request) : Json :=
  .obj [("query", .str request.query), ("extern", request.bindings.json),
    ("dialect", request.dialect.json)]

end Request

end Flux

end EntityFlux
