import EntityFlux.Json.Decode
import EntityFlux.Schema.Basic

/-!
# Schemas as JSON

A role is written as its name beside the column, if it has one.
-/

namespace EntityFlux

open Json (Rules)

namespace Role

def words : List String := ["timestamp", "tag", "field", "measurement"]

/-- A role without a column has no content, or `null`. -/
def ofJson? (rules : Rules) (json : Json) : Option Role := do
  let (word, content) ← Json.Decode.tagAndContent rules words "role" "column" json
  match word, content with
  | "timestamp", none | "timestamp", some .null => some .timestamp
  | "measurement", none | "measurement", some .null => some .measurement
  | "tag", some column => (Json.Decode.string? column).map .tag
  | "field", some column => (Json.Decode.string? column).map .field
  | _, _ => none

def json : Role → Json
  | .timestamp => .obj [("role", .str "timestamp")]
  | .tag column => .obj [("role", .str "tag"), ("column", .str column)]
  | .field column => .obj [("role", .str "field"), ("column", .str column)]
  | .measurement => .obj [("role", .str "measurement")]

end Role

namespace Entity

def ofJson? (rules : Rules) (json : Json) : Option Entity := do
  match ← Json.Decode.fields rules ["name", "members"] json with
  | [name, members] => do
    let name ← Json.Decode.required Json.Decode.string? name
    let members ← Json.Decode.defaulted [] (Json.Decode.dictionary? (Role.ofJson? rules)) members
    some { name, members }
  | _ => none

def json (entity : Entity) : Json :=
  .obj [("name", .str entity.name),
    ("members", .obj (entity.members.map fun (member, role) => (member, role.json)))]

end Entity

end EntityFlux
