/-
Module: PredicateLogic.Formula.Binders
Purpose: The chain of quantifiers at the front of a formula.
Main exports:
  Binder, Formula.leadingBinders, Formula.matrix, Formula.bindAll
-/
import PredicateLogic.Formula.Sameness

namespace PredicateLogic

/-!
### Leading binders

A formula splits into the quantifiers at its front, each with the variable it binds, and the
formula below them.
-/

/-- A quantifier and the variable it binds. -/
structure Binder where
  quantifier : Quantifier
  bound : Variable
deriving Repr, DecidableEq

/-- The text of a binder. -/
def Binder.text (b : Binder) : String :=
  b.quantifier.symbol ++ b.bound.name

namespace Formula

/-- The binders at the front of a formula, outermost first. -/
def leadingBinders : Formula → List Binder
  | .quantified q bound body _ =>
      { quantifier := q, bound := bound } :: body.leadingBinders
  | _ => []

/-- The formula below the binders at the front. -/
def matrix : Formula → Formula
  | .quantified _ _ body _ => body.matrix
  | f => f

/-- The formula with binders put in front of it, the first of them outermost.  They were not read
from a text. -/
def bindAll (binders : List Binder) (body : Formula) : Formula :=
  binders.foldr (fun b inner => .quantified b.quantifier b.bound inner .unknown) body

@[simp] theorem bindAll_nil (body : Formula) : bindAll [] body = body := rfl

@[simp] theorem bindAll_cons (b : Binder) (bs : List Binder) (body : Formula) :
    bindAll (b :: bs) body = .quantified b.quantifier b.bound (bindAll bs body) .unknown := rfl

/-- Splitting a formula into binders and body loses nothing but the ranges of the quantifiers. -/
theorem bindAll_leadingBinders_matrix (f : Formula) :
    (bindAll f.leadingBinders f.matrix).SameAs f := by
  induction f with
  | quantified q bound body span ih => exact SameAs.quantified rfl ih
  | _ => exact SameAs.rfl

end Formula

end PredicateLogic
