/-
Quoting: a character or a text between quote marks, with every character that could
not be read off the page written as an escape. Nothing quoted ever breaks a line.
-/
import LineCalc.Text.Extender
import LineCalc.Text.Unprintable

namespace LineCalc.Quoted

/-- `c` named by its code point, in lower-case hexadecimal without padding. -/
def codePoint (c : Char) : List Char :=
  ['\\', 'u', '\x7b'] ++ Nat.toDigits 16 c.toNat ++ ['\x7d']

/-- How `c` is written between two marks: as itself, unless it is the mark, the
backslash, an extender or unprintable. -/
def escape (mark c : Char) : List Char :=
  if c = '\x00' then ['\\', '0']
  else if c = '\t' then ['\\', 't']
  else if c = '\r' then ['\\', 'r']
  else if c = '\n' then ['\\', 'n']
  else if c = '\\' ∨ c = mark then ['\\', c]
  else if isExtender c ∨ isUnprintable c then codePoint c
  else [c]

/-- `text` between two marks. -/
def between (mark : Char) (text : List Char) : String :=
  String.ofList (mark :: text.flatMap (escape mark) ++ [mark])

/-- A character in single quotes; a double quote needs no escape there. -/
def ofChar (c : Char) : String := between '\'' [c]

/-- A text in double quotes; a single quote needs no escape there. -/
def ofString (s : String) : String := between '"' s.toList

end LineCalc.Quoted
