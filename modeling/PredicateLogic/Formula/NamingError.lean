/-
Module: PredicateLogic.Formula.NamingError
Purpose: The ways in which the names of a well-formed formula can stand in the way.
Main exports:
  NamingError, NamingError.message
-/

namespace PredicateLogic

/-- Why the names of a formula cannot be told apart or told anew. -/
inductive NamingError where
  /-- A name is both a function symbol and a variable or constant. -/
  | conflict (name : String)
  /-- Every letter that could serve as a fresh name is taken. -/
  | exhausted
deriving Repr, DecidableEq

/-- The wording of an error. -/
def NamingError.message : NamingError → String
  | .conflict name => "Found conflict between variable and function name ('" ++ name ++ "')."
  | .exhausted => "Formula too complex: no unused single-letter variable names left"

end PredicateLogic
