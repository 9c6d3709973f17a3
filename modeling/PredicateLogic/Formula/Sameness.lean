/-
Module: PredicateLogic.Formula.Sameness
Purpose: Formulas that differ in nothing but where they were read.
Main exports:
  Formula.bare, Formula.SameAs
-/
import PredicateLogic.Formula.Basic

namespace PredicateLogic

/-!
### Sameness up to source ranges

`bare` takes every range out of a tree; marks stay.  Two formulas are the same when their bare
trees are equal, which makes sameness an equivalence at once.
-/

/-- The occurrence without its range. -/
def Variable.bare (v : Variable) : Variable :=
  { v with span := .unknown }

mutual

/-- The term without ranges, at every level. -/
def Term.bare : Term → Term
  | .var v => .var v.bare
  | .app f args _ => .app f (Term.bareList args) .unknown

/-- The terms without ranges, at every level. -/
def Term.bareList : List Term → List Term
  | [] => []
  | t :: ts => t.bare :: Term.bareList ts

end

@[simp] theorem Term.bareList_eq_map (ts : List Term) : Term.bareList ts = ts.map Term.bare := by
  induction ts with
  | nil => rfl
  | cons t ts ih => simp [Term.bareList, ih]

namespace Formula

/-- The formula without ranges, at every level. -/
def bare : Formula → Formula
  | .empty _ => .empty .unknown
  | .term t => .term t.bare
  | .literal b _ => .literal b .unknown
  | .predicate p args _ => .predicate p (args.map Term.bare) .unknown
  | .neg a _ => .neg a.bare .unknown
  | .binary c l r _ => .binary c l.bare r.bare .unknown
  | .group e _ => .group e.bare .unknown
  | .quantified q v e _ => .quantified q v.bare e.bare .unknown

/-- The two formulas agree in everything but source ranges. -/
def SameAs (f g : Formula) : Prop := f.bare = g.bare

instance (f g : Formula) : Decidable (f.SameAs g) :=
  inferInstanceAs (Decidable (f.bare = g.bare))

theorem SameAs.rfl {f : Formula} : f.SameAs f := Eq.refl f.bare

theorem SameAs.symm {f g : Formula} (h : f.SameAs g) : g.SameAs f := Eq.symm h

theorem SameAs.trans {f g k : Formula} (h₁ : f.SameAs g) (h₂ : g.SameAs k) : f.SameAs k :=
  Eq.trans h₁ h₂

/-!
Sameness is kept by every node, whatever ranges the two nodes have.
-/

section

variable {f f' g g' : Formula} {args args' : List Term} {name : String} {span span' : Span}

theorem SameAs.predicate (same : args.map Term.bare = args'.map Term.bare) :
    (Formula.predicate name args span).SameAs (.predicate name args' span') :=
  congrArg (Formula.predicate name · .unknown) same

theorem SameAs.neg (same : f.SameAs f') : (Formula.neg f span).SameAs (.neg f' span') :=
  congrArg (Formula.neg · .unknown) same

theorem SameAs.binary {c : Connective} (same : f.SameAs f') (same' : g.SameAs g') :
    (Formula.binary c f g span).SameAs (.binary c f' g' span') := by
  unfold SameAs at *
  rw [bare, bare, same, same']

theorem SameAs.group (same : f.SameAs f') : (Formula.group f span).SameAs (.group f' span') :=
  congrArg (Formula.group · .unknown) same

theorem SameAs.quantified {q : Quantifier} {v v' : Variable} (bound : v.bare = v'.bare)
    (same : f.SameAs f') :
    (Formula.quantified q v f span).SameAs (.quantified q v' f' span') := by
  unfold SameAs at *
  rw [bare, bare, bound, same]

end

end Formula

end PredicateLogic
