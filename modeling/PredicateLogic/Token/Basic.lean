/-
Module: PredicateLogic.Token.Basic
Purpose: The tokens that formula text is made of, and their classes.
Main exports:
  TokenClass, TokenClass.label, TokenClass.ofLabel?, Lexeme, Token
-/
import PredicateLogic.Symbol

namespace PredicateLogic

/-!
### Token classes

A class says what a token is, without the name that it may carry.  The end of the text counts as a
class, so that a message can speak of it, but no token has it.
-/

/-- What a token is. -/
inductive TokenClass where
  | connective (connective : Connective)
  | negation
  | quantifier (quantifier : Quantifier)
  | leftParen
  | rightParen
  | comma
  | literal (value : Bool)
  | predicate
  | function
  | var
  | endOfText
deriving Repr, DecidableEq, Inhabited

namespace TokenClass

/-- The word for a class of tokens in messages. -/
def label : TokenClass → String
  | .connective c => c.label
  | .negation => Operator.negation.label
  | .quantifier q => q.label
  | .leftParen => "LeftParen"
  | .rightParen => "RightParen"
  | .comma => "Comma"
  | .literal true => "True"
  | .literal false => "False"
  | .predicate => "Predicate"
  | .function => "FunctionExpression"
  | .var => "VariableOrConstant"
  | .endOfText => "End"

/-- Every class of tokens, each once. -/
def all : List TokenClass :=
  [.connective .conjunction, .connective .disjunction, .connective .implication, .negation,
    .quantifier .universal, .quantifier .existential, .leftParen, .rightParen, .comma,
    .literal true, .literal false, .predicate, .function, .var, .endOfText]

/-- The class with the given label. -/
def ofLabel? (text : String) : Option TokenClass :=
  all.find? fun c => c.label == text

end TokenClass

/-- The three broad kinds of tokens. -/
inductive TokenKind where
  | operator
  | name
  | boolean
deriving Repr, DecidableEq

/-- The word for a kind of tokens. -/
def TokenKind.label : TokenKind → String
  | .operator => "operator"
  | .name => "name"
  | .boolean => "boolean"

/-!
### Lexemes and tokens

A lexeme is a class together with the name that was written, for the three classes of names.  A
token is a lexeme and the range of characters that spells it.
-/

/-- What a stretch of formula text spells. -/
inductive Lexeme where
  | connective (connective : Connective)
  | negation
  | quantifier (quantifier : Quantifier)
  | leftParen
  | rightParen
  | comma
  | literal (value : Bool)
  | predicate (name : String)
  | function (name : String)
  | var (name : String)
deriving Repr, DecidableEq, Inhabited

namespace Lexeme

/-- The class of a lexeme. -/
def tokenClass : Lexeme → TokenClass
  | .connective c => .connective c
  | .negation => .negation
  | .quantifier q => .quantifier q
  | .leftParen => .leftParen
  | .rightParen => .rightParen
  | .comma => .comma
  | .literal b => .literal b
  | .predicate _ => .predicate
  | .function _ => .function
  | .var _ => .var

/-- The broad kind of a lexeme. -/
def kind : Lexeme → TokenKind
  | .literal _ => .boolean
  | .predicate _ => .name
  | .function _ => .name
  | .var _ => .name
  | _ => .operator

/-- The name that a lexeme carries. -/
def name? : Lexeme → Option String
  | .predicate name => some name
  | .function name => some name
  | .var name => some name
  | _ => none

/-- Only the end of the text has its class, and it is no lexeme. -/
theorem tokenClass_ne_endOfText (l : Lexeme) : l.tokenClass ≠ .endOfText := by
  cases l <;> simp [tokenClass]

end Lexeme

/-- A lexeme and the half-open range of characters that spells it. -/
structure Token where
  lexeme : Lexeme
  start : Nat
  stop : Nat
deriving Repr, DecidableEq, Inhabited

end PredicateLogic
