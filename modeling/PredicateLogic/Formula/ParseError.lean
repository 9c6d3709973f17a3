/-
Module: PredicateLogic.Formula.ParseError
Purpose: The ways in which text can fail to be a formula.
Main exports:
  ParseError, ParseError.message, ParseError.position, ParseError.label, ParseError.offender
-/
import PredicateLogic.Token.Basic
import PredicateLogic.Formula.Basic

namespace PredicateLogic

/-!
### Causes

Each cause carries what its message needs.  Every cause has a position, counted in characters from
zero: that of the first character or token that cannot be accepted, or the length of the text when
the text ends too early.
-/

/-- What an argument list belongs to. -/
inductive ArgumentOwner where
  | predicate
  | function
deriving Repr, DecidableEq

/-- The word for the owner of an argument list. -/
def ArgumentOwner.label : ArgumentOwner → String
  | .predicate => "Predicate"
  | .function => "FunctionExpression"

/-- Why a text is not a formula. -/
inductive ParseError where
  /-- A character at which no token can start. -/
  | illegalCharacter (character : Char) (position : Nat)
  /-- One class of tokens was needed and another was found. -/
  | expected (wanted found : TokenClass) (position : Nat)
  /-- No formula can start, or go on, with what was found. -/
  | unexpected (found : TokenClass) (position : Nat)
  /-- An argument is not a term. -/
  | invalidArgument (owner : ArgumentOwner) (got : Formula.Kind) (position : Nat)
  /-- A function symbol has no arguments. -/
  | emptyArguments (position : Nat)
  /-- A quantifier has no variable. -/
  | missingVariable (found : TokenClass) (position : Nat)
deriving Repr, DecidableEq

namespace ParseError

/-- The position that an error is reported at. -/
def position : ParseError → Nat
  | .illegalCharacter _ position => position
  | .expected _ _ position => position
  | .unexpected _ position => position
  | .invalidArgument _ _ position => position
  | .emptyArguments position => position
  | .missingVariable _ position => position

/-- What was found where something else was needed: the character itself, or the word for a class
of tokens or a kind of node. -/
def offender : ParseError → String
  | .illegalCharacter c _ => c.toString
  | .expected _ found _ => found.label
  | .unexpected found _ => found.label
  | .invalidArgument _ got _ => got.label
  | .emptyArguments _ => TokenClass.function.label
  | .missingVariable found _ => found.label

/-- The wording of an error.  The position of an illegal character is counted from one. -/
def message : ParseError → String
  | .illegalCharacter c position =>
      "Unrecognized symbol: '" ++ c.toString ++ "' (at " ++ (position + 1).repr ++ ")"
  | .expected wanted found position =>
      "Expected " ++ wanted.label ++ " (got " ++ found.label ++ ") at position "
        ++ position.repr
  | .unexpected .endOfText _ => "Unexpected end of formula"
  | .unexpected found position =>
      "Unexpected " ++ found.label ++ " at position " ++ position.repr
  | .invalidArgument .predicate got _ =>
      "Predicate arguments should be variables, constants, or functions (got " ++ got.label ++ ")"
  | .invalidArgument .function got _ =>
      "Function arguments should be variables, constants, or other functions (got "
        ++ got.label ++ ")"
  | .emptyArguments _ => "Functions should have at least one argument"
  | .missingVariable found _ =>
      "Expected a variable for quantification (got " ++ found.label ++ ")"

end ParseError

end PredicateLogic
