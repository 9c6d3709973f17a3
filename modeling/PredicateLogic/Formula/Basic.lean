/-
Module: PredicateLogic.Formula.Basic
Purpose: Formulas as trees that remember where they were read.
Main exports:
  Formula, Formula.Kind
-/
import PredicateLogic.Symbol
import PredicateLogic.Term.Basic

namespace PredicateLogic

/-!
### Formulas

A formula may be empty, and a term may stand where a formula is expected.  Parentheses that were
written are nodes of their own, so that printing gives back the grouping.
-/

/-- A first-order formula. -/
inductive Formula where
  /-- Nothing was written. -/
  | empty (span : Span)
  /-- A term where a formula is expected. -/
  | term (term : Term)
  /-- A truth value. -/
  | literal (value : Bool) (span : Span)
  /-- A predicate symbol applied to terms, none for a proposition. -/
  | predicate (name : String) (arguments : List Term) (span : Span)
  /-- A negation. -/
  | neg (argument : Formula) (span : Span)
  /-- Two formulas joined by a connective. -/
  | binary (connective : Connective) (left right : Formula) (span : Span)
  /-- A formula that was written in parentheses. -/
  | group (body : Formula) (span : Span)
  /-- A quantifier that binds one variable in its body. -/
  | quantified (quantifier : Quantifier) (bound : Variable) (body : Formula) (span : Span)
deriving Repr, DecidableEq, Inhabited

namespace Formula

/-- The range a formula was read from. -/
def span : Formula → Span
  | .empty span => span
  | .term t => t.span
  | .literal _ span => span
  | .predicate _ _ span => span
  | .neg _ span => span
  | .binary _ _ _ span => span
  | .group _ span => span
  | .quantified _ _ _ span => span

/-- Whether a formula has no formula inside: a term, a truth value or a predicate. -/
def isAtom : Formula → Bool
  | .term _ => true
  | .literal _ _ => true
  | .predicate _ _ _ => true
  | _ => false

/-- Whether the root of a formula is a negation. -/
def isNegation : Formula → Bool
  | .neg _ _ => true
  | _ => false

/-- Whether the root of a formula is a pair of parentheses. -/
def isGroup : Formula → Bool
  | .group _ _ => true
  | _ => false

/-- Whether the root of a formula is a quantifier. -/
def isQuantified : Formula → Bool
  | .quantified _ _ _ _ => true
  | _ => false

/-- The formula without the parentheses at its root, one pair at most. -/
def ungroup : Formula → Formula
  | .group body _ => body
  | f => f

/-!
### Kinds of node

Messages about a formula name the kind of its root.
-/

/-- What the root of a formula is. -/
inductive Kind where
  | empty
  | var
  | literal
  | predicate
  | app
  | negation
  | binary
  | group
  | quantified
deriving Repr, DecidableEq

/-- The word for a kind of node in messages. -/
def Kind.label : Kind → String
  | .empty => "Empty"
  | .var => "VariableOrConstant"
  | .literal => "Literal"
  | .predicate => "Predicate"
  | .app => "FunctionExpression"
  | .negation => "UnaryExpression"
  | .binary => "BinaryExpression"
  | .group => "ExpressionStatement"
  | .quantified => "QuantifiedExpression"

/-- What the root of a formula is. -/
def kind : Formula → Kind
  | .empty _ => .empty
  | .term (.var _) => .var
  | .term (.app _ _ _) => .app
  | .literal _ _ => .literal
  | .predicate _ _ _ => .predicate
  | .neg _ _ => .negation
  | .binary _ _ _ _ => .binary
  | .group _ _ => .group
  | .quantified _ _ _ _ => .quantified

end Formula

end PredicateLogic
