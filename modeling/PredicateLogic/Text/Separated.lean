/-
Module: PredicateLogic.Text.Separated
Purpose: Joining texts with a separator between neighbours.
Main exports:
  separated, commaSeparated
-/

namespace PredicateLogic.Text

/-- The texts in order, with the separator between each two neighbours. -/
def separated (separator : String) : List String → String
  | [] => ""
  | [text] => text
  | text :: next :: rest => text ++ separator ++ separated separator (next :: rest)

/-- The texts in order, with a comma and a blank between each two neighbours. -/
def commaSeparated (texts : List String) : String :=
  separated ", " texts

end PredicateLogic.Text
