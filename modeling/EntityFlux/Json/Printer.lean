import EntityFlux.Decimal.Layout
import EntityFlux.Json.Value

/-!
# Writing JSON text

On one line without blanks, or over several lines indented by two spaces. Fields keep their order.
-/

namespace EntityFlux.Json

/-- Fractions are written plainly from 10^-5 up to below 10^16, always with a point. -/
def fractionLayout : Layout where
  plain e := -5 ≤ e && e < 16
  fraction := true
  plusSign := true
  tie := .toEven
  nan := "null"
  infinity _ := "null"

def escapeChar (c : Char) : List Char :=
  if c = '"' then ['\\', '"']
  else if c = '\\' then ['\\', '\\']
  else if c = '\x08' then ['\\', 'b']
  else if c = '\t' then ['\\', 't']
  else if c = '\n' then ['\\', 'n']
  else if c = '\x0c' then ['\\', 'f']
  else if c = '\r' then ['\\', 'r']
  else if c.toNat < 0x20 then
    ['\\', 'u', '0', '0', Nat.digitChar (c.toNat / 16), Nat.digitChar (c.toNat % 16)]
  else [c]

def stringText (s : String) : String :=
  String.ofList ('"' :: (s.toList.flatMap escapeChar ++ ['"']))

mutual

def text : Json → String
  | .null => "null"
  | .bool b => if b then "true" else "false"
  | .int i => Text.Numeral.ofInt i
  | .float x => fractionLayout.text x
  | .str s => stringText s
  | .arr items => "[" ++ itemsText items ++ "]"
  | .obj fields => "\x7b" ++ fieldsText fields ++ "\x7d"
  | .unusable => "null"

def itemsText : List Json → String
  | [] => ""
  | [item] => text item
  | item :: items => text item ++ "," ++ itemsText items

def fieldsText : List (String × Json) → String
  | [] => ""
  | [(name, value)] => stringText name ++ ":" ++ text value
  | (name, value) :: fields => stringText name ++ ":" ++ text value ++ "," ++ fieldsText fields

end

/-- A line break and the blanks in front of what stands `depth` levels deep. -/
def newLine (depth : Nat) : String :=
  String.ofList ('\n' :: List.replicate (2 * depth) ' ')

mutual

/-- The text over several lines, for a value `depth` levels deep. -/
def indented (depth : Nat) : Json → String
  | .arr [] => "[]"
  | .arr items => "[" ++ indentedItems (depth + 1) items ++ newLine depth ++ "]"
  | .obj [] => "\x7b\x7d"
  | .obj fields => "\x7b" ++ indentedFields (depth + 1) fields ++ newLine depth ++ "\x7d"
  | other => text other

def indentedItems (depth : Nat) : List Json → String
  | [] => ""
  | [item] => newLine depth ++ indented depth item
  | item :: items => newLine depth ++ indented depth item ++ "," ++ indentedItems depth items

def indentedFields (depth : Nat) : List (String × Json) → String
  | [] => ""
  | [(name, value)] => newLine depth ++ stringText name ++ ": " ++ indented depth value
  | (name, value) :: fields =>
    newLine depth ++ stringText name ++ ": " ++ indented depth value ++ ","
      ++ indentedFields depth fields

end

end EntityFlux.Json
