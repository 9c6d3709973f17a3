/-
Module: PredicateLogic.Proofs.Polarity
Purpose: The literal form of a formula, read off by polarity in one pass from root to leaves.
  A part of a formula has negative polarity when an odd number of negations and premises lie around
  it.  Turning implications into disjunctions and bringing negations down to atoms both leave the
  literal form as it is, and negation swaps the two polarities.  Formulas that have come to rest
  under both rewritings are their own literal forms, so whatever order the rewritings are applied
  in, they end in one tree.
Main exports: Formula.polarForm, Formula.polarForm_negate, Formula.polarForm_implicationFree,
  Formula.polarForm_core, Formula.polarForm_negationNormal, Formula.polarForm_eq_bare,
  Formula.negationNormal_bare, Formula.negationNormal_implicationFree_bare,
  Formula.negationNormal_first_sameAs
-/
import PredicateLogic.Proofs.ImplicationElimination
import PredicateLogic.Proofs.NegationNormalForm

namespace PredicateLogic

/-!
### Symbols under a polarity
-/

/-- The connective that is left of one under a polarity. -/
def Connective.polar (positive : Bool) : Connective → Connective
  | .conjunction => if positive then .conjunction else .disjunction
  | .disjunction => if positive then .disjunction else .conjunction
  | .implication => if positive then .disjunction else .conjunction

/-- The polarity of the left operand of a connective.  A premise turns it round. -/
def Connective.leftPolarity (positive : Bool) : Connective → Bool
  | .implication => !positive
  | _ => positive

/-- The quantifier that is left of one under a polarity. -/
def Quantifier.polar (positive : Bool) (q : Quantifier) : Quantifier :=
  if positive then q else q.dual

namespace Formula

/-- An atom under a polarity: itself or its negation. -/
def polarAtom (positive : Bool) (atom : Formula) : Formula :=
  if positive then atom else .neg atom .unknown

/-- The formula, or its negation if the polarity is negative, with nothing but atoms negated and
without implications and ranges. -/
def polarForm (positive : Bool) : Formula → Formula
  | .neg argument _ => polarForm (!positive) argument
  | .binary c left right _ =>
      .binary (c.polar positive) (polarForm (c.leftPolarity positive) left)
        (polarForm positive right) .unknown
  | .group body _ => .group (polarForm positive body) .unknown
  | .quantified q bound body _ =>
      .quantified (q.polar positive) bound.bare (polarForm positive body) .unknown
  | .empty _ => .empty .unknown
  | .term t => polarAtom positive (.term t.bare)
  | .literal value _ => polarAtom positive (.literal value .unknown)
  | .predicate name args _ => polarAtom positive (.predicate name (args.map Term.bare) .unknown)

/-!
### The literal form under the rewritings
-/

/-- Negation turns the polarity round. -/
theorem polarForm_negate (f : Formula) (positive : Bool) :
    polarForm positive f.negate = polarForm (!positive) f := by
  fun_induction negate f generalizing positive with
  | case1 span => rfl
  | case2 t => rfl
  | case3 value span => rfl
  | case4 name args span => rfl
  | case5 argument span => rw [polarForm, Bool.not_not]
  | case6 body span ih => rw [polarForm, polarForm, ih]
  | case7 left right span ihLeft ihRight =>
      cases positive <;> simp [polarForm, ihLeft, ihRight, Connective.polar, Connective.leftPolarity]
  | case8 left right span ihLeft ihRight =>
      cases positive <;> simp [polarForm, ihLeft, ihRight, Connective.polar, Connective.leftPolarity]
  | case9 left right span ih =>
      cases positive <;> simp [polarForm, ih, Connective.polar, Connective.leftPolarity]
  | case10 q bound body inner span => cases positive <;> simp [polarForm, Quantifier.polar]
  | case11 q bound body span notGroup ih =>
      cases positive <;> simp [polarForm, ih, Quantifier.polar]

/-- Writing implications as disjunctions leaves the literal form as it is. -/
theorem polarForm_implicationFree (f : Formula) (positive : Bool) :
    polarForm positive f.implicationFree = polarForm positive f := by
  induction f generalizing positive with
  | neg argument span ih => rw [implicationFree, polarForm, polarForm, ih]
  | binary c left right span ihLeft ihRight =>
      cases c with
      | implication =>
          have premise : polarForm positive left.implicationFree.negate =
              polarForm (!positive) left := by
            rw [polarForm_negate, ihLeft]
          simp only [implicationFree, polarForm, Connective.leftPolarity, premise, ihRight]
          rfl
      | conjunction | disjunction => simp only [implicationFree, polarForm, ihLeft, ihRight]
  | group body span ih => rw [implicationFree, polarForm, polarForm, ih]
  | quantified q bound body span ih => rw [implicationFree, polarForm, polarForm, ih]
  | _ => rfl

/-- A run of negations turns the polarity round when it is of odd length. -/
theorem polarForm_core (f : Formula) (positive : Bool) :
    polarForm positive f =
      if f.runLength % 2 = 1 then polarForm (!positive) f.core else polarForm positive f.core := by
  induction f generalizing positive with
  | neg argument span ih =>
      rw [polarForm, ih, runLength, core, Bool.not_not]
      by_cases odd : argument.runLength % 2 = 1
      · have even : ¬ (argument.runLength + 1) % 2 = 1 := by omega
        rw [if_pos odd, if_neg even]
      · have odd' : (argument.runLength + 1) % 2 = 1 := by omega
        rw [if_neg odd, if_pos odd']
  | _ => rfl

/-- Bringing negations down to atoms leaves the literal form as it is. -/
theorem polarForm_negationNormal (f : Formula) (positive : Bool) :
    polarForm positive f.negationNormal = polarForm positive f := by
  fun_induction negationNormal f generalizing positive with
  | case1 argument span odd ih =>
      rw [ih, polarForm, polarForm_core argument, if_pos odd, Bool.not_not]
  | case2 argument span even atom =>
      rw [polarForm, polarForm, polarForm_core argument, if_neg even]
  | case3 argument span even compound ih =>
      rw [ih, polarForm_negate, polarForm, polarForm_core argument, if_neg even]
  | case4 c left right span ihLeft ihRight => rw [polarForm, polarForm, ihLeft, ihRight]
  | case5 body span ih => rw [polarForm, polarForm, ih]
  | case6 q bound body span ih => rw [polarForm, polarForm, ih]
  | case7 f _ _ _ _ => rfl

/-!
### Formulas at rest
-/

/-- A formula that negates nothing but atoms and has no implication is its own literal form. -/
theorem polarForm_eq_bare {f : Formula} (normal : f.NegationsOnAtoms)
    (without : f.WithoutImplication) : polarForm true f = f.bare := by
  induction f with
  | neg argument span ih =>
      have atom : argument.isAtom = true := normal.1
      cases argument with
      | term t => rfl
      | literal value span' => rfl
      | predicate name args span' => rfl
      | _ => cases atom
  | binary c left right span ihLeft ihRight =>
      rw [bare, ← ihLeft normal.2.1 without.2.1, ← ihRight normal.2.2 without.2.2]
      cases c with
      | implication => cases without.1
      | conjunction | disjunction => rfl
  | group body span ih => rw [polarForm, bare, ih normal.2 without.2]
  | quantified q bound body span ih =>
      rw [polarForm, bare, ih normal.2 without.2]
      rfl
  | _ => rfl

/-- Without implications, bringing negations down to atoms ends in the literal form. -/
theorem negationNormal_bare {f : Formula} (without : f.WithoutImplication) :
    f.negationNormal.bare = polarForm true f := by
  have normal := negationsOnAtoms_negationNormal f
  have without' : f.negationNormal.WithoutImplication :=
    Everywhere.negationNormal indifferent_isImplication without
  rw [← polarForm_eq_bare normal without', polarForm_negationNormal]

/-- With implications written as disjunctions first and negations brought down to atoms after that,
every formula ends in its literal form. -/
theorem negationNormal_implicationFree_bare (f : Formula) :
    f.implicationFree.negationNormal.bare = polarForm true f := by
  rw [negationNormal_bare (withoutImplication_implicationFree f), polarForm_implicationFree]

/-- Bringing negations down to atoms before the implications are written as disjunctions, and once
more after that, ends in the same tree as doing so after that alone, whatever the formula is. -/
theorem negationNormal_first_sameAs (f : Formula) :
    f.negationNormal.implicationFree.negationNormal.SameAs f.implicationFree.negationNormal := by
  calc f.negationNormal.implicationFree.negationNormal.bare
      = polarForm true f.negationNormal := negationNormal_implicationFree_bare f.negationNormal
    _ = polarForm true f := polarForm_negationNormal f true
    _ = f.implicationFree.negationNormal.bare := (negationNormal_implicationFree_bare f).symm

end Formula

end PredicateLogic
