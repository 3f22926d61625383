import EntityFlux.Json.Value

/-!
# TOML documents

The tree that a TOML document builds up line by line. A table may be completed later only by the
means that created it: a header may name a table that so far only stood inside a longer header, and
a dotted key may go on in a table that a dotted key began.
-/

namespace EntityFlux.Toml

/-- How a table came to be: by its own header, inside the path of a header, or by a dotted key. -/
inductive Origin where
  | header
  | implied
  | dotted
deriving DecidableEq, Repr

inductive Node where
  | value (json : Json)
  | table (origin : Origin) (entries : List (String × Node))
  /-- The elements of an array of tables. -/
  | tables (elements : List (List (String × Node)))

abbrev Entries := List (String × Node)

namespace Entries

def get? (key : String) : Entries → Option Node
  | [] => none
  | (other, node) :: rest => if key = other then some node else get? key rest

def put (key : String) (node : Node) : Entries → Entries
  | [] => [(key, node)]
  | (other, old) :: rest =>
    if key = other then (other, node) :: rest else (other, old) :: put key node rest

/-- Changes the last element of an array of tables. -/
def onLast (f : Entries → Option Entries) : List Entries → Option (List Entries)
  | [] => none
  | [last] => (f last).map ([·])
  | element :: elements => (onLast f elements).map (element :: ·)

/-- Starts the table of a header. -/
def openTable : List String → Entries → Option Entries
  | [], _ => none
  | [key], entries =>
    match get? key entries with
    | none => some (put key (.table .header []) entries)
    | some (.table .implied inner) => some (put key (.table .header inner) entries)
    | some _ => none
  | key :: path, entries =>
    match get? key entries with
    | none => (openTable path []).map fun inner => put key (.table .implied inner) entries
    | some (.table origin inner) =>
      (openTable path inner).map fun inner => put key (.table origin inner) entries
    | some (.tables elements) =>
      (onLast (openTable path) elements).map fun elements => put key (.tables elements) entries
    | some (.value _) => none

/-- Starts the next element of the array of tables that a header names. -/
def openElement : List String → Entries → Option Entries
  | [], _ => none
  | [key], entries =>
    match get? key entries with
    | none => some (put key (.tables [[]]) entries)
    | some (.tables elements) => some (put key (.tables (elements ++ [[]])) entries)
    | some _ => none
  | key :: path, entries =>
    match get? key entries with
    | none => (openElement path []).map fun inner => put key (.table .implied inner) entries
    | some (.table origin inner) =>
      (openElement path inner).map fun inner => put key (.table origin inner) entries
    | some (.tables elements) =>
      (onLast (openElement path) elements).map fun elements => put key (.tables elements) entries
    | some (.value _) => none

/-- Changes the table that the header of the current section named. -/
def within (f : Entries → Option Entries) : List String → Entries → Option Entries
  | [], entries => f entries
  | key :: path, entries =>
    match get? key entries with
    | some (.table origin inner) =>
      (within f path inner).map fun inner => put key (.table origin inner) entries
    | some (.tables elements) =>
      (onLast (within f path) elements).map fun elements => put key (.tables elements) entries
    | _ => none

/-- Sets the value of a key with as many dots as the path has steps, in one table. -/
def assign (json : Json) : List String → Entries → Option Entries
  | [], _ => none
  | [key], entries =>
    match get? key entries with
    | none => some (put key (.value json) entries)
    | some _ => none
  | key :: path, entries =>
    match get? key entries with
    | none => (assign json path []).map fun inner => put key (.table .dotted inner) entries
    | some (.table .dotted inner) =>
      (assign json path inner).map fun inner => put key (.table .dotted inner) entries
    | some (.table .implied inner) =>
      if path.length = 1 then none
      else (assign json path inner).map fun inner => put key (.table .implied inner) entries
    | some (.tables elements) =>
      if path.length = 1 then none
      else (onLast (assign json path) elements).map fun elements =>
        put key (.tables elements) entries
    | some _ => none

end Entries

mutual

def Node.json : Node → Json
  | .value json => json
  | .table _ entries => .obj (entriesJson entries)
  | .tables elements => .arr (elementsJson elements)

def entriesJson : List (String × Node) → List (String × Json)
  | [] => []
  | (key, node) :: rest => (key, node.json) :: entriesJson rest

def elementsJson : List (List (String × Node)) → List Json
  | [] => []
  | entries :: rest => .obj (entriesJson entries) :: elementsJson rest

end

end EntityFlux.Toml
