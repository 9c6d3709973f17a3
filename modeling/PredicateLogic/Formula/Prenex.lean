/-
Module: PredicateLogic.Formula.Prenex
Purpose: Pulling quantifiers to the left over conjunctions and disjunctions.
Main exports:
  Formula.apart, Formula.joinBound, Formula.pulls, Formula.pullQuantifiers
-/
import PredicateLogic.Formula.Binders
import PredicateLogic.Formula.FreeVariables

namespace PredicateLogic.Formula

/-!
### When quantifiers may be pulled

`P & A.x Q(x)` means the same as `A.x (P & Q(x))` when `x` is not free in `P`, and likewise for the
other connective, the other quantifier and the other side.  The binders at the front of both
operands may be pulled together when no name is bound on both sides, and no name bound on one side
is free on the other.
-/

/-- Whether the binders at the front of two operands keep apart from each other's names. -/
def apart (left right : Formula) : Bool :=
  let leftNames := left.leadingBinders.map fun b => b.bound.name
  let rightNames := right.leadingBinders.map fun b => b.bound.name
  !rightNames.any leftNames.contains
    && !rightNames.any (fun name => left.hasFree name [])
    && !leftNames.any (fun name => right.hasFree name [])

/-!
### Parentheses of the operands

The new group below the binders does not need the parentheses that its operands had around them,
unless the printed text would then be read differently: a chain of connectives groups to the
right, so an operand on the left keeps parentheses around any connective, and one on the right
around an implication.
-/

/-- A left operand with no more parentheses than it needs. -/
def trimLeft : Formula → Formula
  | .group (.binary c left right inner) span => .group (.binary c left right inner) span
  | .group body _ => body
  | .binary c left right span => .group (.binary c left right span) .unknown
  | f => f

/-- A right operand with no more parentheses than it needs. -/
def trimRight : Formula → Formula
  | .group (.binary .implication left right inner) span =>
      .group (.binary .implication left right inner) span
  | .group body _ => body
  | .binary .implication left right span =>
      .group (.binary .implication left right span) .unknown
  | f => f

/-- The operands joined by a connective, with the binders at their fronts pulled out: those of the
left operand first, around a group.  The flags say which operands keep the parentheses they have. -/
def joinBound (c : Connective) (keepLeft keepRight : Bool) (left right : Formula) : Formula :=
  let leftBody := if keepLeft then left.matrix else left.matrix.trimLeft
  let rightBody := if keepRight then right.matrix else right.matrix.trimRight
  bindAll (left.leadingBinders ++ right.leadingBinders)
    (.group (.binary c leftBody rightBody .unknown) .unknown)

/-- Whether the binders of two operands are pulled out in front of the connective between them: the
right operand has to start with one, and implications are never rearranged. -/
def pulls (c : Connective) (left right : Formula) : Bool :=
  c != .implication && right.isQuantified && apart left right

/-!
### Pulling

The work goes from the leaves to the root.  Parentheses directly around a quantifier are dropped,
and the parentheses that an operand was written in are kept.
-/

/-- The formula with quantifiers pulled to the left. -/
def pullQuantifiers : Formula → Formula
  | .neg argument span => .neg argument.pullQuantifiers span
  | .binary c left right span =>
      let newLeft := left.pullQuantifiers
      let newRight := right.pullQuantifiers
      if pulls c newLeft newRight then
        joinBound c left.isGroup right.isGroup newLeft newRight
      else
        .binary c newLeft newRight span
  | .group body span =>
      let newBody := body.pullQuantifiers
      if newBody.isQuantified then newBody else .group newBody span
  | .quantified q bound body span => .quantified q bound body.pullQuantifiers span
  | f => f

end PredicateLogic.Formula
