/-
Module: PredicateLogic.Text.Quoted
Purpose: Texts in quotation marks, with what cannot be printed written by code point.
Main exports:
  escape, quoted, quotedList
-/
import PredicateLogic.Text.Printable
import PredicateLogic.Text.Separated

namespace PredicateLogic.Text

/-!
### Quotation marks

A text is put in single quotation marks, or in double ones when it holds a single mark and no
double one.  Inside, the mark and the backslash take a backslash in front of them, line breaks and
tabs have short names, and any other character that cannot be printed is written by its code point
in two, four or eight hexadecimal digits, as few of these as hold it.
-/

/-- The last digits of a number to base sixteen, as many as asked for. -/
def hexDigits : Nat → Nat → List Char
  | 0, _ => []
  | count + 1, n => hexDigits count (n / 16) ++ [Nat.digitChar (n % 16)]

/-- A code point as an escape with two, four or eight digits. -/
def codePoint (n : Nat) : List Char :=
  if n < 0x100 then '\\' :: 'x' :: hexDigits 2 n
  else if n < 0x10000 then '\\' :: 'u' :: hexDigits 4 n
  else '\\' :: 'U' :: hexDigits 8 n

/-- The written form of one character between the given marks. -/
def escape (mark c : Char) : List Char :=
  if c = mark ∨ c = '\\' then ['\\', c]
  else if c = '\n' then ['\\', 'n']
  else if c = '\t' then ['\\', 't']
  else if c = '\r' then ['\\', 'r']
  else if isPrintable c then [c]
  else codePoint c.toNat

/-- The mark that a text is put between. -/
def markFor (text : List Char) : Char :=
  if text.contains '\'' && !text.contains '"' then '"' else '\''

/-- A text in quotation marks. -/
def quoted (text : String) : String :=
  let mark := markFor text.toList
  String.ofList (mark :: text.toList.flatMap (escape mark) ++ [mark])

/-- Texts in quotation marks, separated by commas in brackets. -/
def quotedList (texts : List String) : String :=
  "[" ++ commaSeparated (texts.map quoted) ++ "]"

end PredicateLogic.Text
