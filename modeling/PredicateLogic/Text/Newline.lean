/-
Module: PredicateLogic.Text.Newline
Purpose: One form for the three usual line breaks.
Main exports:
  unifyNewlines
-/

namespace PredicateLogic.Text

/-- The characters with a carriage return, and the line feed right behind it if there is one,
written as one line feed. -/
def unifyLineBreaks : List Char → List Char
  | [] => []
  | '\r' :: '\n' :: rest => '\n' :: unifyLineBreaks rest
  | '\r' :: rest => '\n' :: unifyLineBreaks rest
  | c :: rest => c :: unifyLineBreaks rest

/-- The text with every line break written as a line feed. -/
def unifyNewlines (text : String) : String :=
  String.ofList (unifyLineBreaks text.toList)

end PredicateLogic.Text
