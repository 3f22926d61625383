import EntityFlux.Json.Value

/-!
# Reading records and choices from JSON

A record is an object, or an array of its fields in their order. A choice is named by a tag, which
stands among the fields of the chosen case (`tagged`) or beside one content (`tagAndContent`). Names
that are not asked for are passed over; a name that is asked for may stand only once.
-/

namespace EntityFlux.Json

/-- What a place in a document allows beyond the common rules. -/
structure Rules where
  /-- A tag may be the position of its name in the list of cases. -/
  positions : Bool
  /-- What may stand as the value of a word that is written as the only name of an object. -/
  besideWord : Json → Bool
  /-- An array may hold more than the fields of the record. -/
  surplus : Bool

namespace Rules

/-- JSON text read from the top. -/
def document : Rules where
  positions := false
  besideWord
    | .null => true
    | _ => false
  surplus := false

/-- Inside a case of a tagged choice. -/
def inCase : Rules where
  positions := true
  besideWord
    | .null | .obj [] => true
    | _ => false
  surplus := false

/-- Settings, which have no null. -/
def settings : Rules where
  positions := false
  besideWord
    | .arr [] | .obj [] => true
    | _ => false
  surplus := true

end Rules

namespace Decode

def alignItems : List String → List Json → List (Option Json)
  | [], _ => []
  | _ :: names, [] => none :: alignItems names []
  | _ :: names, item :: items => some item :: alignItems names items

/-- The values of the named fields of a record in the order of the names, `none` for a missing
one. -/
def fields (rules : Rules) (names : List String) : Json → Option (List (Option Json))
  | .obj entries =>
    if names.all fun name => (entries.filter (·.1 = name)).length ≤ 1 then
      some (names.map fun name => Dictionary.get? name entries)
    else none
  | .arr items =>
    if items.length ≤ names.length ∨ rules.surplus then some (alignItems names items) else none
  | _ => none

/-- A name from a list, or its position in the list where the rules allow that. -/
def named? (rules : Rules) (names : List String) : Json → Option String
  | .str s => if s ∈ names then some s else none
  | .int position => if rules.positions ∧ 0 ≤ position then names[position.toNat]? else none
  | _ => none

/-- One of a list of words. -/
def word? (rules : Rules) (words : List String) : Json → Option String
  | .str s => if s ∈ words then some s else none
  | .obj [(s, beside)] => if s ∈ words ∧ rules.besideWord beside then some s else none
  | _ => none

/-- The case that a tag names, with the names of its fields. -/
def case? (rules : Rules) (cases : List (String × List String)) (tag : Json) :
    Option (String × List String) := do
  let name ← named? rules (cases.map (·.1)) tag
  cases.find? (·.1 = name)

/-- The name of the chosen case and the values of its fields. From the top, every part of the
value has to be usable, whether it is asked for or not. -/
def tagged (rules : Rules) (tagName : String) (cases : List (String × List String)) (json : Json) :
    Option (String × List (Option Json)) :=
  if ¬ rules.positions ∧ ¬ json.isUsable then none
  else
    match json with
    | .obj entries =>
      match entries.filter (·.1 = tagName) with
      | [(_, tag)] => do
        let (name, names) ← case? rules cases tag
        let values ← fields .inCase names (.obj (entries.filter (·.1 ≠ tagName)))
        some (name, values)
      | _ => none
    | .arr (tag :: items) => do
      let (name, names) ← case? rules cases tag
      let values ← fields .inCase names (.arr items)
      some (name, values)
    | _ => none

/-- The word that a tag is and the content beside it, if any. In an array the tag is a name. -/
def tagAndContent (rules : Rules) (words : List String) (tagName contentName : String) :
    Json → Option (String × Option Json)
  | .obj entries => do
    match ← fields rules [tagName, contentName] (.obj entries) with
    | [some tag, content] => (word? rules words tag).map (·, content)
    | _ => none
  | .arr (tag :: content :: rest) =>
    if rest.isEmpty ∨ rules.surplus then (named? rules words tag).map (·, some content) else none
  | _ => none

def string? : Json → Option String
  | .str s => some s
  | _ => none

def bool? : Json → Option Bool
  | .bool b => some b
  | _ => none

def int64? : Json → Option Int64
  | .int i =>
    if Int64.minValue.toInt ≤ i ∧ i ≤ Int64.maxValue.toInt then some (Int64.ofInt i) else none
  | _ => none

/-- A whole number counts as the nearest fraction. -/
def float? : Json → Option Binary64
  | .float x => some x
  | .int i => some (Binary64.ofInt i)
  | _ => none

def list? {α : Type} (item? : Json → Option α) : Json → Option (List α)
  | .arr items => items.mapM item?
  | _ => none

def dictionary? {α : Type} (value? : Json → Option α) : Json → Option (Dictionary α)
  | .obj entries => do
    let values ← entries.mapM fun (name, value) => (value? value).map fun v => (name, v)
    some (Dictionary.ofList values)
  | _ => none

/-- `null` stands for nothing. -/
def nullable? {α : Type} (value? : Json → Option α) : Json → Option (Option α)
  | .null => some none
  | json => (value? json).map some

def required {α : Type} (value? : Json → Option α) (field : Option Json) : Option α :=
  field.bind value?

/-- A field that may be left out. -/
def defaulted {α : Type} (default : α) (value? : Json → Option α) : Option Json → Option α
  | none => some default
  | some json => value? json

end Decode

end EntityFlux.Json
