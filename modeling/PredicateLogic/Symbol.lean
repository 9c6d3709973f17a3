/-
Module: PredicateLogic.Symbol
Purpose: The logical symbols of first-order logic and their written form.
Main exports:
  Connective, Quantifier, Quantifier.dual, Operator
-/

namespace PredicateLogic

/-!
### Logical symbols

Three connectives join two formulas, two quantifiers bind one variable each, and negation stands
in front of a formula.  Every symbol has one canonical spelling, the one that printing uses.
-/

/-- The connectives that join two formulas. -/
inductive Connective where
  | conjunction
  | disjunction
  | implication
deriving Repr, DecidableEq, Inhabited

namespace Connective

/-- The word for a connective. -/
def label : Connective → String
  | .conjunction => "Conjunction"
  | .disjunction => "Disjunction"
  | .implication => "Implication"

/-- The canonical spelling of a connective. -/
def symbol : Connective → String
  | .conjunction => "&"
  | .disjunction => "|"
  | .implication => "->"

end Connective

/-- The two quantifiers. -/
inductive Quantifier where
  | universal
  | existential
deriving Repr, DecidableEq, Inhabited

namespace Quantifier

/-- The word for a quantifier. -/
def label : Quantifier → String
  | .universal => "Universal"
  | .existential => "Existential"

/-- The canonical spelling of a quantifier, which its variable follows at once. -/
def symbol : Quantifier → String
  | .universal => "A."
  | .existential => "E."

/-- The quantifier that takes this one's place when a negation passes over it. -/
def dual : Quantifier → Quantifier
  | .universal => .existential
  | .existential => .universal

@[simp] theorem dual_dual (q : Quantifier) : q.dual.dual = q := by
  cases q <;> rfl

/-- The quantifier with the given label. -/
def ofLabel? (text : String) : Option Quantifier :=
  [universal, existential].find? fun q => q.label == text

end Quantifier

/-- The symbols that make formulas out of formulas without binding a variable. -/
inductive Operator where
  | connective (connective : Connective)
  | negation
deriving Repr, DecidableEq, Inhabited

namespace Operator

/-- The word for an operator. -/
def label : Operator → String
  | .connective c => c.label
  | .negation => "Negation"

/-- The canonical spelling of an operator. -/
def symbol : Operator → String
  | .connective c => c.symbol
  | .negation => "!"

/-- The operator with the given label. -/
def ofLabel? (text : String) : Option Operator :=
  [connective .conjunction, connective .disjunction, connective .implication, negation].find?
    fun operator => operator.label == text

end Operator

end PredicateLogic
