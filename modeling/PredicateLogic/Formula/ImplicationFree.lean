/-
Module: PredicateLogic.Formula.ImplicationFree
Purpose: Writing implications as disjunctions.
Main exports:
  Formula.implicationFree
-/
import PredicateLogic.Formula.Negation

namespace PredicateLogic.Formula

/-!
### Implications

`P -> Q` means the same as `!P | Q`.  The operands come first, so the left operand holds
no implication by the time its negation is passed inward.
-/

/-- The formula with every implication written as a disjunction. -/
def implicationFree : Formula → Formula
  | .neg argument span => .neg argument.implicationFree span
  | .binary .implication left right span =>
      .binary .disjunction left.implicationFree.negate right.implicationFree span
  | .binary c left right span => .binary c left.implicationFree right.implicationFree span
  | .group body span => .group body.implicationFree span
  | .quantified q bound body span => .quantified q bound body.implicationFree span
  | f => f

end PredicateLogic.Formula
