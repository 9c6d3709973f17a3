/-
Module: PredicateLogic.Formula.BindingPower
Purpose: How tightly the symbols of a formula bind.
Main exports:
  Connective.bindingPower, negationPower, TokenClass.bindingPower,
  TokenClass.startsFormula, TokenClass.joinsFormulas
-/
import PredicateLogic.Token.Basic

namespace PredicateLogic

/-!
### Binding powers

Implication binds weakest, conjunction and disjunction bind alike, negation binds tightest.  The
right operand of a connective is read with one less than the connective's own power, so a chain of
connectives of one power groups to the right: `P & Q | R` is `P & (Q | R)`.
-/

/-- How tightly a connective holds on to the formula on its left. -/
def Connective.bindingPower : Connective → Nat
  | .conjunction => 50
  | .disjunction => 50
  | .implication => 40

/-- How tightly a negation holds on to its argument. -/
def negationPower : Nat := 70

namespace TokenClass

/-- How tightly a token holds on to the formula on its left, zero if it cannot follow one. -/
def bindingPower : TokenClass → Nat
  | .connective c => c.bindingPower
  | _ => 0

/-- Whether a formula can start with a token. -/
def startsFormula : TokenClass → Bool
  | .var => true
  | .literal _ => true
  | .predicate => true
  | .function => true
  | .negation => true
  | .leftParen => true
  | .quantifier _ => true
  | _ => false

/-- Whether a token joins the formula on its left to one on its right. -/
def joinsFormulas : TokenClass → Bool
  | .connective _ => true
  | _ => false

end TokenClass

end PredicateLogic
