import EntityFlux.Calendar.Date
import EntityFlux.Json.Value
import EntityFlux.Text.Numeral

/-!
# Scalars of TOML

Strings in their four spellings, whole numbers in four bases, fractions, and dates and times. Every
reader takes its scalar off the front of the text.
-/

namespace EntityFlux.Toml

open EntityFlux.Text

/-- Characters that may stand in comments and, quotes and backslashes apart, in strings. -/
def isPlain (c : Char) : Bool := c = '\t' || (0x20 ≤ c.toNat && c.toNat ≠ 0x7f)

/-! ## Strings -/

def escaped? : Char → Option Char
  | 'b' => some '\x08'
  | 't' => some '\t'
  | 'n' => some '\n'
  | 'f' => some '\x0c'
  | 'r' => some '\r'
  | '"' => some '"'
  | '\\' => some '\\'
  | _ => none

def scalar? (digits : List Char) : Option Char := do
  let (n, _) ← Numeral.hex? digits.length digits 0
  if n.isValidChar then some (Char.ofNat n) else none

/-- A string in double quotes, behind the first. -/
def basic? : List Char → Option (List Char × List Char)
  | [] => none
  | '"' :: rest => some ([], rest)
  | '\\' :: 'u' :: a :: b :: c :: d :: rest => do
    let char ← scalar? [a, b, c, d]
    let (chars, rest) ← basic? rest
    some (char :: chars, rest)
  | '\\' :: 'U' :: a :: b :: c :: d :: e :: f :: g :: h :: rest => do
    let char ← scalar? [a, b, c, d, e, f, g, h]
    let (chars, rest) ← basic? rest
    some (char :: chars, rest)
  | '\\' :: c :: rest => do
    let char ← escaped? c
    let (chars, rest) ← basic? rest
    some (char :: chars, rest)
  | c :: rest =>
    if c = '\\' ∨ ¬ isPlain c then none
    else do
      let (chars, rest) ← basic? rest
      some (c :: chars, rest)

/-- A string in single quotes, behind the first. -/
def literal? : List Char → Option (List Char × List Char)
  | [] => none
  | '\x27' :: rest => some ([], rest)
  | c :: rest =>
    if ¬ isPlain c then none
    else do
      let (chars, rest) ← literal? rest
      some (c :: chars, rest)

/-- Where a string over several lines stands: in its text, between a backslash and the end of its
line, or in the blanks that such a backslash removes. -/
inductive Place where
  | text
  | beforeBreak
  | afterBreak

/-- A string over several lines in double quotes. Up to two quotes may stand before the closing
three. -/
def longBasic? : Place → List Char → Option (List Char × List Char)
  | _, [] => none
  | .beforeBreak, '\n' :: rest => longBasic? .afterBreak rest
  | .beforeBreak, '\r' :: '\n' :: rest => longBasic? .afterBreak rest
  | .beforeBreak, c :: rest => if c = ' ' ∨ c = '\t' then longBasic? .beforeBreak rest else none
  | .afterBreak, ' ' :: rest => longBasic? .afterBreak rest
  | .afterBreak, '\t' :: rest => longBasic? .afterBreak rest
  | .afterBreak, '\n' :: rest => longBasic? .afterBreak rest
  | .afterBreak, '\r' :: '\n' :: rest => longBasic? .afterBreak rest
  | _, '"' :: '"' :: '"' :: '"' :: '"' :: rest => some (['"', '"'], rest)
  | _, '"' :: '"' :: '"' :: '"' :: rest => some (['"'], rest)
  | _, '"' :: '"' :: '"' :: rest => some ([], rest)
  | _, '\\' :: 'u' :: a :: b :: c :: d :: rest => do
    let char ← scalar? [a, b, c, d]
    let (chars, rest) ← longBasic? .text rest
    some (char :: chars, rest)
  | _, '\\' :: 'U' :: a :: b :: c :: d :: e :: f :: g :: h :: rest => do
    let char ← scalar? [a, b, c, d, e, f, g, h]
    let (chars, rest) ← longBasic? .text rest
    some (char :: chars, rest)
  | _, '\\' :: c :: rest =>
    match escaped? c with
    | some char => do
      let (chars, rest) ← longBasic? .text rest
      some (char :: chars, rest)
    | none => longBasic? .beforeBreak (c :: rest)
  | _, '\r' :: '\n' :: rest => do
    let (chars, rest) ← longBasic? .text rest
    some ('\n' :: chars, rest)
  | _, c :: rest =>
    if c ≠ '\n' ∧ (c = '\\' ∨ ¬ isPlain c) then none
    else do
      let (chars, rest) ← longBasic? .text rest
      some (c :: chars, rest)

/-- A string over several lines in single quotes. -/
def longLiteral? : List Char → Option (List Char × List Char)
  | [] => none
  | '\x27' :: '\x27' :: '\x27' :: '\x27' :: '\x27' :: rest => some (['\x27', '\x27'], rest)
  | '\x27' :: '\x27' :: '\x27' :: '\x27' :: rest => some (['\x27'], rest)
  | '\x27' :: '\x27' :: '\x27' :: rest => some ([], rest)
  | '\r' :: '\n' :: rest => do
    let (chars, rest) ← longLiteral? rest
    some ('\n' :: chars, rest)
  | c :: rest =>
    if c ≠ '\n' ∧ ¬ isPlain c then none
    else do
      let (chars, rest) ← longLiteral? rest
      some (c :: chars, rest)

/-- A line break right behind the opening quotes does not count. -/
def skipBreak : List Char → List Char
  | '\n' :: rest => rest
  | '\r' :: '\n' :: rest => rest
  | cs => cs

def string? : List Char → Option (String × List Char)
  | '"' :: '"' :: '"' :: rest => (longBasic? .text (skipBreak rest)).map ofChars
  | '"' :: rest => (basic? rest).map ofChars
  | '\x27' :: '\x27' :: '\x27' :: rest => (longLiteral? (skipBreak rest)).map ofChars
  | '\x27' :: rest => (literal? rest).map ofChars
  | _ => none
where
  ofChars : List Char × List Char → String × List Char
    | (chars, rest) => (String.ofList chars, rest)

/-! ## Numbers -/

/-- Digits with single underscores between them, the underscores left out. -/
def underscored (isDigit : Char → Bool) : List Char → List Char × List Char
  | '_' :: c :: cs =>
    if isDigit c then
      let (digits, rest) := underscored isDigit cs
      (c :: digits, rest)
    else ([], '_' :: c :: cs)
  | c :: cs =>
    if isDigit c then
      let (digits, rest) := underscored isDigit cs
      (c :: digits, rest)
    else ([], c :: cs)
  | [] => ([], [])

def digits? (isDigit : Char → Bool) : List Char → Option (List Char × List Char)
  | c :: cs => if isDigit c then some (underscored isDigit (c :: cs)) else none
  | [] => none

/-- A whole number in base ten does not begin with zero unless it is zero. -/
def decimal? (cs : List Char) : Option (List Char × List Char) :=
  match digits? Char.isDigit cs with
  | some ('0' :: _ :: _, _) => none
  | split => split

def sign : List Char → Bool × List Char
  | '-' :: cs => (true, cs)
  | '+' :: cs => (false, cs)
  | cs => (false, cs)

def whole? (negative : Bool) (n : Nat) : Option Json :=
  let i : Int := if negative then -n else n
  if Int64.minValue.toInt ≤ i ∧ i ≤ Int64.maxValue.toInt then some (.int i) else none

def based? (base : Nat) (cs : List Char) : Option (Json × List Char) := do
  let isDigit (c : Char) : Bool := (Numeral.hexDigit? c).any (· < base)
  let (digits, rest) ← digits? isDigit cs
  let n := digits.foldl (fun n c => base * n + (Numeral.hexDigit? c).getD 0) 0
  let json ← whole? false n
  some (json, rest)

def integer? (cs : List Char) : Option (Json × List Char) :=
  match cs with
  | '0' :: 'x' :: cs => based? 16 cs
  | '0' :: 'o' :: cs => based? 8 cs
  | '0' :: 'b' :: cs => based? 2 cs
  | _ => do
    let (negative, cs) := sign cs
    let (digits, rest) ← decimal? cs
    let json ← whole? negative (Numeral.value digits)
    some (json, rest)

def exponent? : List Char → Option (Option Int × List Char)
  | 'e' :: cs | 'E' :: cs => do
    let (negative, cs) := sign cs
    let (digits, rest) ← digits? Char.isDigit cs
    let n : Int := Numeral.value digits
    some (some (if negative then -n else n), rest)
  | cs => some (none, cs)

def fraction? : List Char → Option (Option (List Char) × List Char)
  | '.' :: cs => (digits? Char.isDigit cs).map fun (digits, rest) => (some digits, rest)
  | cs => some (none, cs)

/-- A number with a point or an exponent; one beyond the greatest is refused. -/
def float? (cs : List Char) : Option (Json × List Char) := do
  let (negative, cs) := sign cs
  match cs with
  | 'i' :: 'n' :: 'f' :: rest => some (.float (.infinite negative), rest)
  | 'n' :: 'a' :: 'n' :: rest => some (.float .nan, rest)
  | _ => do
    let (whole, cs) ← decimal? cs
    let (fraction, cs) ← fraction? cs
    let (exponent, cs) ← exponent? cs
    if fraction.isNone ∧ exponent.isNone then none
    else
      let fraction := fraction.getD []
      let x := Binary64.ofDecimal negative (Numeral.value (whole ++ fraction))
        (exponent.getD 0 - fraction.length)
      if x = .infinite false then none else some (.float x, cs)

/-! ## Dates and times -/

/-- Exactly `count` digits. -/
def fixed? (count : Nat) (cs : List Char) : Option (Nat × List Char) :=
  let (digits, rest) := Numeral.spanUpTo count cs
  if digits.length = count then some (Numeral.value digits, rest) else none

def mark? (c : Char) : List Char → Option (List Char)
  | d :: rest => if d = c then some rest else none
  | [] => none

def date? (cs : List Char) : Option (List Char) := do
  let (year, cs) ← fixed? 4 cs
  let cs ← mark? '-' cs
  let (month, cs) ← fixed? 2 cs
  let cs ← mark? '-' cs
  let (day, cs) ← fixed? 2 cs
  if (Date.mk year month day).Exists then some cs else none

def time? (cs : List Char) : Option (List Char) := do
  let (hour, cs) ← fixed? 2 cs
  let cs ← mark? ':' cs
  let (minute, cs) ← fixed? 2 cs
  let cs ← mark? ':' cs
  let (second, cs) ← fixed? 2 cs
  if hour ≤ 23 ∧ minute ≤ 59 ∧ second ≤ 60 then
    match cs with
    | '.' :: cs =>
      match Numeral.span cs with
      | ([], _) => none
      | (_, rest) => some rest
    | cs => some cs
  else none

def zone? : List Char → Option (List Char)
  | 'Z' :: rest | 'z' :: rest => some rest
  | '+' :: rest | '-' :: rest => do
    let (hour, rest) ← fixed? 2 rest
    let rest ← mark? ':' rest
    let (minute, rest) ← fixed? 2 rest
    if hour ≤ 23 ∧ minute ≤ 59 then some rest else none
  | _ => none

/-- A date, a time, or both with or without a zone: what is left behind it. -/
def dateTime? (cs : List Char) : Option (List Char) :=
  match date? cs with
  | none => time? cs
  | some rest =>
    match rest with
    | 'T' :: time | 't' :: time | ' ' :: time =>
      match time? time with
      | none => some rest
      | some rest => some ((zone? rest).getD rest)
    | _ => some rest

/-- A date-time reads like a record with one field that nobody asks for. -/
def dateTimeJson (cs rest : List Char) : Json :=
  .obj [("date-time", .str (String.ofList (cs.take (cs.length - rest.length))))]

def scalarValue? (cs : List Char) : Option (Json × List Char) :=
  match cs with
  | 't' :: 'r' :: 'u' :: 'e' :: rest => some (.bool true, rest)
  | 'f' :: 'a' :: 'l' :: 's' :: 'e' :: rest => some (.bool false, rest)
  | '"' :: _ | '\x27' :: _ => (string? cs).map fun (s, rest) => (.str s, rest)
  | _ =>
    match dateTime? cs with
    | some rest => some (dateTimeJson cs rest, rest)
    | none =>
      match float? cs with
      | some found => some found
      | none => integer? cs

end EntityFlux.Toml
