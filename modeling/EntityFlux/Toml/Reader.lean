import EntityFlux.Toml.Document
import EntityFlux.Toml.Scalar

/-!
# Reading TOML

Line by line: a header, a key with its value, a comment or nothing. Arrays may run over several
lines, tables in braces may not. Fewer than 80 of them may stand inside each other, and a key has
fewer than 80 parts.
-/

namespace EntityFlux.Toml

namespace Reader

def isBlank (c : Char) : Bool := c = ' ' || c = '\t'

def skip (cs : List Char) : List Char := cs.dropWhile isBlank

def lineBreak? : List Char → Option (List Char)
  | '\n' :: rest => some rest
  | '\r' :: '\n' :: rest => some rest
  | _ => none

def skipComment : List Char → List Char
  | '#' :: rest => rest.dropWhile isPlain
  | cs => cs

/-- The end of a line, with blanks and a comment before it. -/
def lineEnd? (cs : List Char) : Option (List Char) :=
  match skipComment (skip cs) with
  | [] => some []
  | cs => lineBreak? cs

/-- Blanks, line breaks and comments between the elements of an array. -/
def skipLines : Nat → List Char → List Char
  | 0, cs => cs
  | fuel + 1, cs =>
    match skipComment (skip cs) with
    | '\n' :: rest => skipLines fuel rest
    | '\r' :: '\n' :: rest => skipLines fuel rest
    | rest => rest

def limit : Nat := 80

def isBare (c : Char) : Bool := c.isAlphanum || c = '_' || c = '-'

/-- One part of a key. -/
def simpleKey? : List Char → Option (String × List Char)
  | '"' :: rest => (basic? rest).map fun (chars, rest) => (String.ofList chars, rest)
  | '\x27' :: rest => (literal? rest).map fun (chars, rest) => (String.ofList chars, rest)
  | cs =>
    match cs.takeWhile isBare with
    | [] => none
    | chars => some (String.ofList chars, cs.dropWhile isBare)

def keyParts? : Nat → List Char → Option (List String × List Char)
  | 0, _ => none
  | fuel + 1, cs => do
    let (part, rest) ← simpleKey? (skip cs)
    match skip rest with
    | '.' :: rest => do
      let (parts, rest) ← keyParts? fuel rest
      some (part :: parts, rest)
    | rest => some ([part], rest)

def key? (cs : List Char) : Option (List String × List Char) := keyParts? (limit - 1) cs

mutual

def value? : Nat → Nat → List Char → Option (Json × List Char)
  | 0, _, _ => none
  | fuel + 1, depth, cs =>
    match cs with
    | '[' :: cs =>
      if depth + 1 < limit then do
        let (items, rest) ← items? fuel (depth + 1) cs
        some (.arr items, rest)
      else none
    | '\x7b' :: cs =>
      if depth + 1 < limit then
        match skip cs with
        | '\x7d' :: rest => some (.obj [], rest)
        | _ => do
          let (entries, rest) ← pairs? fuel (depth + 1) [] cs
          some (.obj (entriesJson entries), rest)
      else none
    | cs => scalarValue? cs

/-- The elements of an array up to its closing bracket; a comma may follow the last one. -/
def items? : Nat → Nat → List Char → Option (List Json × List Char)
  | 0, _, _ => none
  | fuel + 1, depth, cs =>
    match skipLines cs.length cs with
    | ']' :: rest => some ([], rest)
    | cs => do
      let (item, cs) ← value? fuel depth cs
      match skipLines cs.length cs with
      | ',' :: cs => do
        let (items, rest) ← items? fuel depth cs
        some (item :: items, rest)
      | ']' :: rest => some ([item], rest)
      | _ => none

/-- The pairs of a table in braces up to the closing one, added to those before. -/
def pairs? : Nat → Nat → Entries → List Char → Option (Entries × List Char)
  | 0, _, _, _ => none
  | fuel + 1, depth, entries, cs => do
    let (path, cs) ← key? cs
    let cs ← mark? '=' cs
    let (json, cs) ← value? fuel depth (skip cs)
    let entries ← entries.assign json path
    match skip cs with
    | ',' :: cs => pairs? fuel depth entries cs
    | '\x7d' :: rest => some (entries, rest)
    | _ => none

end

/-- The document so far and the header of the current section. -/
structure State where
  root : Entries := []
  header : List String := []

/-- One line that is not empty. -/
def line? (state : State) (cs : List Char) : Option (State × List Char) :=
  match cs with
  | '[' :: '[' :: cs => do
    let (path, cs) ← key? cs
    let cs ← mark? ']' cs
    let cs ← mark? ']' cs
    let rest ← lineEnd? cs
    let root ← state.root.openElement path
    some (⟨root, path⟩, rest)
  | '[' :: cs => do
    let (path, cs) ← key? cs
    let cs ← mark? ']' cs
    let rest ← lineEnd? cs
    let root ← state.root.openTable path
    some (⟨root, path⟩, rest)
  | cs => do
    let (path, cs) ← key? cs
    let cs ← mark? '=' cs
    let (json, cs) ← value? (2 * cs.length + 2) 0 (skip cs)
    let rest ← lineEnd? cs
    let root ← state.root.within (Entries.assign json path) state.header
    some (⟨root, state.header⟩, rest)

def lines? : Nat → State → List Char → Option Entries
  | 0, _, _ => none
  | fuel + 1, state, cs =>
    match skip cs with
    | [] => some state.root
    | '#' :: rest => do
      let rest ← lineEnd? ('#' :: rest)
      lines? fuel state rest
    | '\n' :: rest => lines? fuel state rest
    | '\r' :: '\n' :: rest => lines? fuel state rest
    | cs => do
      let (state, rest) ← line? state cs
      lines? fuel state rest

end Reader

/-- A byte order mark in front does not count. -/
def read? (text : String) : Option Json := do
  let cs := match text.toList with
    | '\ufeff' :: cs => cs
    | cs => cs
  let root ← Reader.lines? (cs.length + 1) {} cs
  some (.obj (entriesJson root))

end EntityFlux.Toml
