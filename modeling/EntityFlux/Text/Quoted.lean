import EntityFlux.Text.Unprintable
import EntityFlux.Text.GraphemeExtend

/-!
# Quoted strings

A string in double quotes, with a backslash in front of what cannot stand there as it is. Every
character that has no glyph, or that would merge with the one before it, is written by its code
point, so a quoted string shows on one line exactly what it holds.
-/

namespace EntityFlux.Text

namespace Quoted

def codePoint (c : Char) : List Char :=
  ['\\', 'u', '\x7b'] ++ Nat.toDigits 16 c.toNat ++ ['\x7d']

/-- How `c` is written; `coded` says which characters are given by code point. -/
def encodeChar (coded : Char → Bool) (c : Char) : List Char :=
  if c = '\x00' then ['\\', '0']
  else if c = '\t' then ['\\', 't']
  else if c = '\r' then ['\\', 'r']
  else if c = '\n' then ['\\', 'n']
  else if c = '"' then ['\\', '"']
  else if c = '\\' then ['\\', '\\']
  else if coded c then codePoint c
  else [c]

def encode (coded : Char → Bool) (cs : List Char) : List Char :=
  '"' :: (cs.flatMap (encodeChar coded) ++ ['"'])

/-- The Hangul fillers, letters that are drawn as nothing. -/
def blankLetters : CodePoints := [(0x115f, 0x1160), (0x3164, 0x3164), (0xffa0, 0xffa0)]

/-- The halfwidth sound marks, which extend the letter before them and still stand beside it. -/
def spacingMarks : CodePoints := [(0xff9e, 0xff9f)]

def isCoded (c : Char) : Bool :=
  isUnprintable c || blankLetters.has c || (isGraphemeExtend c && !spacingMarks.has c)

end Quoted

/-- A string literal as it stands in Flux text, and a path as messages name it. -/
def quote (s : String) : String :=
  String.ofList (Quoted.encode Quoted.isCoded s.toList)

end EntityFlux.Text
