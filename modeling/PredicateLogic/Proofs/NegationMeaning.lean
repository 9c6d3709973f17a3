/-
Module: PredicateLogic.Proofs.NegationMeaning
Purpose: Passing a negation inward negates the meaning of a formula.
  The laws of De Morgan, the duality of the quantifiers and the removal of one negation each swap
  true and false.  The empty formula is the exception: it is its own negation, so formulas with an
  empty part are left out.
Main exports: Quantifier.over_dual, Formula.holds_negate, Formula.Everywhere.negate,
  Formula.negate_swaps_truth
-/
import PredicateLogic.Formula.Negation
import PredicateLogic.Proofs.EveryNode
import PredicateLogic.Proofs.Semantics

namespace PredicateLogic

universe u

/-- The negation of a quantifier is its dual over the negations. -/
theorem Quantifier.over_dual {D : Type u} (q : Quantifier) (P : D → Prop) :
    q.dual.Over (fun d => ¬ P d) ↔ ¬ q.Over P := by
  cases q with
  | universal => exact not_forall.symm
  | existential => exact not_exists.symm

namespace Formula

variable {f : Formula}

/-- The negation of a formula is true exactly when the formula is not. -/
theorem holds_negate (full : f.Full) (M : Structure.{u}) (ρ : Valuation M) :
    f.negate.Holds M ρ ↔ ¬ f.Holds M ρ := by
  fun_induction negate f generalizing ρ with
  | case1 span => cases full
  | case2 t => exact Iff.rfl
  | case3 value span => exact Iff.rfl
  | case4 name args span => exact Iff.rfl
  | case5 argument span => exact not_not.symm
  | case6 body span ih => exact ih full.2 ρ
  | case7 left right span ihLeft ihRight =>
      obtain ⟨-, fullLeft, fullRight⟩ := full
      exact (or_congr (ihLeft fullLeft ρ) (ihRight fullRight ρ)).trans not_and_or.symm
  | case8 left right span ihLeft ihRight =>
      obtain ⟨-, fullLeft, fullRight⟩ := full
      exact (and_congr (ihLeft fullLeft ρ) (ihRight fullRight ρ)).trans not_or.symm
  | case9 left right span ih =>
      obtain ⟨-, -, fullRight⟩ := full
      exact (and_congr_right fun _ => ih fullRight ρ).trans Classical.not_imp.symm
  | case10 q bound body inner span => exact q.over_dual _
  | case11 q bound body span notGroup ih =>
      have negated := q.dual.over_congr fun d => ih full.2 (Function.update ρ bound.name d)
      exact negated.trans (q.over_dual _)

/-- Negation keeps every condition that is indifferent to it. -/
theorem Everywhere.negate {condition : Formula → Prop} (indifferent : Indifferent condition)
    (everywhere : f.Everywhere condition) : f.negate.Everywhere condition := by
  fun_induction Formula.negate f with
  | case1 span => exact everywhere
  | case2 t => exact ⟨indifferent.neg _ _, everywhere⟩
  | case3 value span => exact ⟨indifferent.neg _ _, everywhere⟩
  | case4 name args span => exact ⟨indifferent.neg _ _, everywhere⟩
  | case5 argument span => exact everywhere.2
  | case6 body span ih => exact ⟨indifferent.group _ _, ih everywhere.2⟩
  | case7 left right span ihLeft ihRight =>
      obtain ⟨-, everyLeft, everyRight⟩ := everywhere
      exact ⟨indifferent.joined _ _ _ _ (by simp), ihLeft everyLeft, ihRight everyRight⟩
  | case8 left right span ihLeft ihRight =>
      obtain ⟨-, everyLeft, everyRight⟩ := everywhere
      exact ⟨indifferent.joined _ _ _ _ (by simp), ihLeft everyLeft, ihRight everyRight⟩
  | case9 left right span ih =>
      obtain ⟨-, everyLeft, everyRight⟩ := everywhere
      exact ⟨indifferent.joined _ _ _ _ (by simp), everyLeft, ih everyRight⟩
  | case10 q bound body inner span =>
      obtain ⟨here, everyBody⟩ := everywhere
      exact ⟨indifferent.quantified _ _ _ _ _ _ _ here, indifferent.neg _ _, everyBody⟩
  | case11 q bound body span notGroup ih =>
      obtain ⟨here, everyBody⟩ := everywhere
      exact ⟨indifferent.quantified _ _ _ _ _ _ _ here, ih everyBody⟩

/-- Negation leaves no part empty. -/
theorem Full.negate (full : f.Full) : f.negate.Full :=
  Everywhere.negate indifferent_isEmpty full

/-- Negation brings in no implication. -/
theorem WithoutImplication.negate (without : f.WithoutImplication) :
    f.negate.WithoutImplication :=
  Everywhere.negate indifferent_isImplication without

/-- The negation of a formula without an empty part has no empty part either, and is true in a
structure under a valuation exactly when the formula is false there. -/
theorem negate_swaps_truth (full : f.Full) :
    f.negate.Full ∧
      ∀ (M : Structure.{u}) (ρ : Valuation M), f.negate.Holds M ρ ↔ ¬ f.Holds M ρ :=
  ⟨full.negate, holds_negate full⟩

/-- `(A.x (P(x) | y) -> !!Q) & E.z A.z (z -> True & R(f(z)))`: a group below one quantifier and a
quantifier below another, with every connective on the way. -/
def negatableThroughout : Formula :=
  .binary .conjunction
    (.group
      (.binary .implication
        (.quantified .universal { name := "x" }
          (.group
            (.binary .disjunction (.predicate "P" [.var { name := "x" }] .unknown)
              (.term (.var { name := "y" })) .unknown) .unknown) .unknown)
        (.neg (.neg (.predicate "Q" [] .unknown) .unknown) .unknown) .unknown) .unknown)
    (.quantified .existential { name := "z" }
      (.quantified .universal { name := "z" }
        (.group
          (.binary .implication (.term (.var { name := "z" }))
            (.binary .conjunction (.literal true .unknown)
              (.predicate "R" [.app "f" [.var { name := "z" }] .unknown] .unknown) .unknown)
            .unknown) .unknown) .unknown) .unknown) .unknown

theorem negate_swaps_truth_negatableThroughout :
    negatableThroughout.Full ∧ negatableThroughout.negate.Full ∧
      ∀ (M : Structure.{u}) (ρ : Valuation M),
        negatableThroughout.negate.Holds M ρ ↔ ¬ negatableThroughout.Holds M ρ := by
  have full : negatableThroughout.Full := by decide
  exact ⟨full, negate_swaps_truth full⟩

end Formula

end PredicateLogic
