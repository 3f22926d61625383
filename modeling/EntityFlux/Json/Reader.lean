import EntityFlux.Json.Number

/-!
# Reading JSON text

The strict grammar: no comments, no comma before a closing bracket, no control characters in
strings, nothing after the value but blanks. At most 127 arrays and objects may stand inside each
other.
-/

namespace EntityFlux.Json

namespace Reader

open EntityFlux.Text

def isBlank (c : Char) : Bool := c = ' ' || c = '\t' || c = '\n' || c = '\r'

def skip (cs : List Char) : List Char := cs.dropWhile isBlank

def escaped? : Char → Option Nat
  | '"' => some 0x22
  | '\\' => some 0x5c
  | '/' => some 0x2f
  | 'b' => some 0x8
  | 'f' => some 0xc
  | 'n' => some 0xa
  | 'r' => some 0xd
  | 't' => some 0x9
  | _ => none

/-- The code units of a string up to its closing quote, and what follows. A unit is a code point,
or half of a surrogate pair if it was written by number. -/
def units? : List Char → Option (List Nat × List Char)
  | [] => none
  | '"' :: rest => some ([], rest)
  | '\\' :: 'u' :: a :: b :: c :: d :: rest => do
    let (unit, _) ← Numeral.hex? 4 [a, b, c, d] 0
    let (units, rest) ← units? rest
    some (unit :: units, rest)
  | '\\' :: c :: rest => do
    let unit ← escaped? c
    let (units, rest) ← units? rest
    some (unit :: units, rest)
  | c :: rest =>
    if c = '\\' ∨ c.toNat < 0x20 then none
    else do
      let (units, rest) ← units? rest
      some (c.toNat :: units, rest)

def isHighHalf (unit : Nat) : Bool := 0xd800 ≤ unit && unit < 0xdc00

def isLowHalf (unit : Nat) : Bool := 0xdc00 ≤ unit && unit < 0xe000

/-- The characters of a string, if every half of a surrogate pair has its other half. -/
def characters? : List Nat → Option (List Char)
  | [] => some []
  | high :: low :: rest =>
    if isHighHalf high && isLowHalf low then
      (characters? rest).map (Char.ofNat (0x10000 + (high - 0xd800) * 0x400 + (low - 0xdc00)) :: ·)
    else if isHighHalf high || isLowHalf high then none
    else (characters? (low :: rest)).map (Char.ofNat high :: ·)
  | [unit] => if isHighHalf unit || isLowHalf unit then none else some [Char.ofNat unit]

/-- A string behind its opening quote. The string itself is missing if it is not usable. -/
def string? (cs : List Char) : Option (Option String × List Char) :=
  (units? cs).map fun (units, rest) => ((characters? units).map String.ofList, rest)

def depthLimit : Nat := 127

/-- A container with `depth` others around it. -/
def nested (depth : Nat) (container : Json) : Json :=
  if depth < depthLimit then container else .unusable

/-- An object, unless one of its names is not usable. -/
def object (fields : List (Option String × Json)) : Json :=
  match fields.mapM fun (name, value) => name.map fun name => (name, value) with
  | some fields => .obj fields
  | none => .unusable

mutual

def value? : Nat → Nat → List Char → Option (Json × List Char)
  | 0, _, _ => none
  | fuel + 1, depth, cs =>
    match skip cs with
    | 'n' :: 'u' :: 'l' :: 'l' :: rest => some (.null, rest)
    | 't' :: 'r' :: 'u' :: 'e' :: rest => some (.bool true, rest)
    | 'f' :: 'a' :: 'l' :: 's' :: 'e' :: rest => some (.bool false, rest)
    | '"' :: cs => do
      let (s, rest) ← string? cs
      some ((s.map Json.str).getD .unusable, rest)
    | '[' :: cs =>
      match skip cs with
      | ']' :: rest => some (nested depth (.arr []), rest)
      | _ => do
        let (items, rest) ← items? fuel (depth + 1) cs
        some (nested depth (.arr items), rest)
    | '\x7b' :: cs =>
      match skip cs with
      | '\x7d' :: rest => some (nested depth (.obj []), rest)
      | _ => do
        let (fields, rest) ← fields? fuel (depth + 1) cs
        some (nested depth (object fields), rest)
    | cs => Number.read? cs

def items? : Nat → Nat → List Char → Option (List Json × List Char)
  | 0, _, _ => none
  | fuel + 1, depth, cs => do
    let (item, cs) ← value? fuel depth cs
    match skip cs with
    | ',' :: cs => do
      let (items, rest) ← items? fuel depth cs
      some (item :: items, rest)
    | ']' :: rest => some ([item], rest)
    | _ => none

def fields? : Nat → Nat → List Char → Option (List (Option String × Json) × List Char)
  | 0, _, _ => none
  | fuel + 1, depth, cs =>
    match skip cs with
    | '"' :: cs => do
      let (name, cs) ← string? cs
      match skip cs with
      | ':' :: cs => do
        let (value, cs) ← value? fuel depth cs
        match skip cs with
        | ',' :: cs => do
          let (fields, rest) ← fields? fuel depth cs
          some ((name, value) :: fields, rest)
        | '\x7d' :: rest => some ([(name, value)], rest)
        | _ => none
      | _ => none
    | _ => none

end

end Reader

open Reader in
def read? (text : String) : Option Json := do
  let cs := text.toList
  let (value, rest) ← value? (2 * cs.length + 2) 0 cs
  if skip rest = [] then some value else none

end EntityFlux.Json
