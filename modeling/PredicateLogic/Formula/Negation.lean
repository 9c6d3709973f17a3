/-
Module: PredicateLogic.Formula.Negation
Purpose: The negation of a formula, passed inward.
Main exports:
  Formula.negate, Formula.weight
-/
import PredicateLogic.Formula.Basic

namespace PredicateLogic

/-!
### Negation

To negate a formula, one negation is taken off it, or passed inward by the laws of De Morgan and
the duality of quantifiers until it meets an atom, a negation or a group below a quantifier.  The
negation of `P -> Q` is `P & !Q`.  Nothing is the negation of nothing.
-/

/-- The negation of a formula, passed inward.  The body of a quantifier that is a group is not
entered but negated as a whole. -/
def Formula.negate : Formula → Formula
  | .empty span => .empty span
  | .term t => .neg (.term t) t.span
  | .literal value span => .neg (.literal value span) span
  | .predicate name args span => .neg (.predicate name args span) span
  | .neg argument _ => argument
  | .group body span => .group body.negate span
  | .binary .conjunction left right span => .binary .disjunction left.negate right.negate span
  | .binary .disjunction left right span => .binary .conjunction left.negate right.negate span
  | .binary .implication left right span => .binary .conjunction left right.negate span
  | .quantified q bound (.group body inner) span =>
      .quantified q.dual bound (.neg (.group body inner) inner) span
  | .quantified q bound body span => .quantified q.dual bound body.negate span

/-!
### Weight

Passing a negation inward may leave more negations than there were, but it never changes the count
of the other nodes.
-/

namespace Formula

/-- The number of nodes other than negations. -/
def weight : Formula → Nat
  | .empty _ => 1
  | .term t => t.size
  | .literal _ _ => 1
  | .predicate _ args _ => Term.sizeList args + 1
  | .neg argument _ => argument.weight
  | .binary _ left right _ => left.weight + right.weight + 1
  | .group body _ => body.weight + 1
  | .quantified _ _ body _ => body.weight + 2

/-- Passing a negation inward only adds and takes away negations. -/
theorem weight_negate (f : Formula) : f.negate.weight = f.weight := by
  fun_induction negate f <;> simp_all [weight]

/-- A negation that has been passed into a formula with parts does not stay at its root. -/
theorem isNegation_negate {f : Formula} (compound : f.isAtom = false)
    (plain : f.isNegation = false) : f.negate.isNegation = false := by
  cases f with
  | empty span => rfl
  | term t => exact absurd compound (by simp [isAtom])
  | literal value span => exact absurd compound (by simp [isAtom])
  | predicate name args span => exact absurd compound (by simp [isAtom])
  | neg argument span => exact absurd plain (by simp [isNegation])
  | binary c left right span => cases c <;> rfl
  | group body span => rfl
  | quantified q bound body span => cases body <;> rfl

end Formula

end PredicateLogic
