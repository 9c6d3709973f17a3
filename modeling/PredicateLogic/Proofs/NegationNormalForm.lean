/-
Module: PredicateLogic.Proofs.NegationNormalForm
Purpose: Every negation is brought down to an atom, without a change of meaning.
  The induction is along the recursion of the normal form itself: what an odd run of negations
  leads to is no part of the formula that is worked on.  A formula means the same as its core, or
  the negation of that, by the parity of the run (`holds_core`).
Main exports: Formula.negationsOnAtoms_negationNormal, Formula.negationNormal_eq_self,
  Formula.Everywhere.negationNormal, Formula.holds_negationNormal,
  Formula.negationNormal_reaches_normal_form
-/
import PredicateLogic.Formula.NegationNormal
import PredicateLogic.Proofs.NegationMeaning

namespace PredicateLogic.Formula

universe u

variable {f : Formula}

/-!
### Runs of negations
-/

/-- What holds of every part of a formula holds of every part of its core. -/
theorem Everywhere.core {condition : Formula → Prop} (everywhere : f.Everywhere condition) :
    f.core.Everywhere condition := by
  fun_induction Formula.core f with
  | case1 argument span ih => exact ih everywhere.2
  | case2 f plain => exact everywhere

/-- A run of negations means the same as its core when it is of even length, and the opposite when
it is of odd length. -/
theorem holds_core (M : Structure.{u}) (ρ : Valuation M) (f : Formula) :
    f.Holds M ρ ↔ if f.runLength % 2 = 1 then ¬ f.core.Holds M ρ else f.core.Holds M ρ := by
  induction f with
  | neg argument span ih =>
      have below : (Formula.neg argument span).Holds M ρ ↔ ¬ argument.Holds M ρ := Iff.rfl
      rw [below, ih]
      by_cases odd : argument.runLength % 2 = 1
      · have even : ¬ (argument.runLength + 1) % 2 = 1 := by omega
        simp only [runLength, core, odd, even, if_true, if_false, not_not]
      · have odd' : (argument.runLength + 1) % 2 = 1 := by omega
        simp only [runLength, core, odd, odd', if_true, if_false]
  | _ => simp [runLength, core]

/-!
### The normal form
-/

/-- In the normal form nothing but atoms is negated. -/
theorem negationsOnAtoms_negationNormal (f : Formula) : f.negationNormal.NegationsOnAtoms := by
  fun_induction negationNormal f with
  | case1 argument span odd ih => exact ih
  | case2 argument span even atom =>
      refine ⟨atom, everywhere_of_isAtom atom ?_⟩
      cases core : argument.core with
      | neg inner span' => exact absurd (isNegation_core argument) (by simp [core, isNegation])
      | _ => rfl
  | case3 argument span even compound ih => exact ih
  | case4 c left right span ihLeft ihRight => exact ⟨rfl, ihLeft, ihRight⟩
  | case5 body span ih => exact ⟨rfl, ih⟩
  | case6 q bound body span ih => exact ⟨rfl, ih⟩
  | case7 f notNeg notBinary notGroup notQuantified =>
      cases f with
      | neg argument span => exact absurd rfl (notNeg argument span)
      | binary c left right span => exact absurd rfl (notBinary c left right span)
      | group body span => exact absurd rfl (notGroup body span)
      | quantified q bound body span => exact absurd rfl (notQuantified q bound body span)
      | _ => rfl

/-- A formula in which nothing but atoms is negated is left as it is. -/
theorem negationNormal_eq_self (normal : f.NegationsOnAtoms) : f.negationNormal = f := by
  induction f with
  | neg argument span ih =>
      have atom : argument.isAtom = true := normal.1
      cases argument with
      | term t => simp [negationNormal, runLength, core, isAtom]
      | literal value span' => simp [negationNormal, runLength, core, isAtom]
      | predicate name args span' => simp [negationNormal, runLength, core, isAtom]
      | _ => cases atom
  | binary c left right span ihLeft ihRight =>
      rw [negationNormal, ihLeft normal.2.1, ihRight normal.2.2]
  | group body span ih => rw [negationNormal, ih normal.2]
  | quantified q bound body span ih => rw [negationNormal, ih normal.2]
  | _ => simp [negationNormal]

/-!
### Meaning
-/

/-- Every condition that is indifferent to negations, conjunctions and disjunctions is kept. -/
theorem Everywhere.negationNormal {condition : Formula → Prop}
    (indifferent : Indifferent condition) (everywhere : f.Everywhere condition) :
    f.negationNormal.Everywhere condition := by
  fun_induction Formula.negationNormal f with
  | case1 argument span odd ih => exact ih everywhere.2.core
  | case2 argument span even atom => exact ⟨indifferent.neg _ _, everywhere.2.core⟩
  | case3 argument span even compound ih => exact ih (everywhere.2.core.negate indifferent)
  | case4 c left right span ihLeft ihRight =>
      obtain ⟨here, everyLeft, everyRight⟩ := everywhere
      exact ⟨indifferent.operands _ _ _ _ _ _ _ here, ihLeft everyLeft, ihRight everyRight⟩
  | case5 body span ih => exact ⟨indifferent.group _ _, ih everywhere.2⟩
  | case6 q bound body span ih =>
      obtain ⟨here, everyBody⟩ := everywhere
      exact ⟨indifferent.quantified _ _ _ _ _ _ _ here, ih everyBody⟩
  | case7 f _ _ _ _ => exact everywhere

/-- The normal form is true exactly when the formula is. -/
theorem holds_negationNormal (full : f.Full) (M : Structure.{u}) (ρ : Valuation M) :
    f.negationNormal.Holds M ρ ↔ f.Holds M ρ := by
  fun_induction negationNormal f generalizing ρ with
  | case1 argument span odd ih =>
      have opposite := holds_core M ρ argument
      rw [if_pos odd] at opposite
      exact (ih (Everywhere.core full.2) ρ).trans (not_iff_comm.1 opposite.symm).symm
  | case2 argument span even atom =>
      have same := holds_core M ρ argument
      rw [if_neg even] at same
      exact not_congr same.symm
  | case3 argument span even compound ih =>
      have core : argument.core.Full := Everywhere.core full.2
      have same := holds_core M ρ argument
      rw [if_neg even] at same
      calc argument.core.negate.negationNormal.Holds M ρ
          ↔ argument.core.negate.Holds M ρ := ih core.negate ρ
        _ ↔ ¬ argument.core.Holds M ρ := holds_negate core M ρ
        _ ↔ ¬ argument.Holds M ρ := not_congr same.symm
  | case4 c left right span ihLeft ihRight =>
      exact c.join_congr (ihLeft full.2.1 ρ) (ihRight full.2.2 ρ)
  | case5 body span ih => exact ih full.2 ρ
  | case6 q bound body span ih =>
      exact q.over_congr fun d => ih full.2 (Function.update ρ bound.name d)
  | case7 f _ _ _ _ => exact Iff.rfl

/-- The normal form of any formula negates nothing but atoms.  The formulas that do so already are
the ones it leaves as they are, up to ranges, so a second time changes nothing; and if no part of
the formula is empty, the normal form is true in the same structures under the same valuations. -/
theorem negationNormal_reaches_normal_form (f : Formula) :
    f.negationNormal.NegationsOnAtoms ∧
      (f.negationNormal.SameAs f ↔ f.NegationsOnAtoms) ∧
      f.negationNormal.negationNormal = f.negationNormal ∧
      (f.Full → ∀ (M : Structure.{u}) (ρ : Valuation M),
        f.negationNormal.Holds M ρ ↔ f.Holds M ρ) := by
  have normal := negationsOnAtoms_negationNormal f
  refine ⟨normal, ?_, negationNormal_eq_self normal, holds_negationNormal⟩
  constructor
  · intro same
    exact same.negationsOnAtoms_iff.1 normal
  · intro already
    rw [negationNormal_eq_self already]
    exact SameAs.rfl

/-- `!!!A.x (!P(x) -> !!!(x & Q))`: odd runs of negations above a quantifier, an atom and a
group. -/
def stackedNegations : Formula :=
  let negated := fun f : Formula => Formula.neg f .unknown
  negated <| negated <| negated <|
    .quantified .universal { name := "x" }
      (.group
        (.binary .implication (negated (.predicate "P" [.var { name := "x" }] .unknown))
          (negated <| negated <| negated <|
            .group
              (.binary .conjunction (.term (.var { name := "x" })) (.predicate "Q" [] .unknown)
                .unknown) .unknown) .unknown) .unknown) .unknown

theorem negationNormal_reaches_normal_form_stackedNegations :
    stackedNegations.Full ∧ ¬ stackedNegations.NegationsOnAtoms ∧
      stackedNegations.negationNormal.NegationsOnAtoms ∧
      stackedNegations.negationNormal.negationNormal = stackedNegations.negationNormal ∧
      ∀ (M : Structure.{u}) (ρ : Valuation M),
        stackedNegations.negationNormal.Holds M ρ ↔ stackedNegations.Holds M ρ := by
  have full : stackedNegations.Full := by decide
  obtain ⟨normal, -, again, same⟩ := negationNormal_reaches_normal_form stackedNegations
  exact ⟨full, by decide, normal, again, same full⟩

end PredicateLogic.Formula
