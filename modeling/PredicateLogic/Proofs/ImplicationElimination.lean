/-
Module: PredicateLogic.Proofs.ImplicationElimination
Purpose: Writing implications as disjunctions leaves no implication and keeps the meaning.
  The operands are rewritten before their implication is, so what is negated holds no implication
  any more, and negation brings in none.
Main exports: Formula.withoutImplication_implicationFree, Formula.Everywhere.implicationFree,
  Formula.implicationFree_equivalent, Formula.implicationFree_eq_self,
  Formula.implicationFree_eliminates
-/
import PredicateLogic.Formula.ImplicationFree
import PredicateLogic.Proofs.NegationMeaning

namespace PredicateLogic.Formula

universe u

variable {f : Formula}

/-- What comes out holds no implication, at any depth. -/
theorem withoutImplication_implicationFree (f : Formula) :
    f.implicationFree.WithoutImplication := by
  induction f with
  | neg argument span ih => exact ⟨rfl, ih⟩
  | binary c left right span ihLeft ihRight =>
      cases c with
      | conjunction => exact ⟨rfl, ihLeft, ihRight⟩
      | disjunction => exact ⟨rfl, ihLeft, ihRight⟩
      | implication => exact ⟨rfl, ihLeft.negate, ihRight⟩
  | group body span ih => exact ⟨rfl, ih⟩
  | quantified q bound body span ih => exact ⟨rfl, ih⟩
  | _ => rfl

/-- Every condition that is indifferent to negations, conjunctions and disjunctions is kept. -/
theorem Everywhere.implicationFree {condition : Formula → Prop}
    (indifferent : Indifferent condition) (everywhere : f.Everywhere condition) :
    f.implicationFree.Everywhere condition := by
  induction f with
  | neg argument span ih => exact ⟨indifferent.neg _ _, ih everywhere.2⟩
  | binary c left right span ihLeft ihRight =>
      obtain ⟨-, everyLeft, everyRight⟩ := everywhere
      have left := ihLeft everyLeft
      have right := ihRight everyRight
      cases c with
      | conjunction => exact ⟨indifferent.joined _ _ _ _ (by simp), left, right⟩
      | disjunction => exact ⟨indifferent.joined _ _ _ _ (by simp), left, right⟩
      | implication =>
          exact ⟨indifferent.joined _ _ _ _ (by simp), left.negate indifferent, right⟩
  | group body span ih => exact ⟨indifferent.group _ _, ih everywhere.2⟩
  | quantified q bound body span ih =>
      obtain ⟨here, everyBody⟩ := everywhere
      exact ⟨indifferent.quantified _ _ _ _ _ _ _ here, ih everyBody⟩
  | _ => exact everywhere

/-- No part becomes empty. -/
theorem Full.implicationFree (full : f.Full) : f.implicationFree.Full :=
  Everywhere.implicationFree indifferent_isEmpty full

/-- A disjunction with the negated premise means the same as the implication. -/
theorem negate_disjunction_equivalent {left right : Formula} (full : left.Full)
    (span span' : Span) :
    Equivalent.{u} (.binary .disjunction left.negate right span)
      (.binary .implication left right span') := by
  intro M ρ
  exact (or_congr_left (holds_negate full M ρ)).trans imp_iff_not_or.symm

/-- Writing implications as disjunctions gives an equivalent formula. -/
theorem implicationFree_equivalent (full : f.Full) : Equivalent.{u} f.implicationFree f := by
  induction f with
  | neg argument span ih => exact (ih full.2).neg span span
  | binary c left right span ihLeft ihRight =>
      obtain ⟨-, fullLeft, fullRight⟩ := full
      have operands := Equivalent.binary c (ihLeft fullLeft) (ihRight fullRight) span span
      cases c with
      | conjunction => exact operands
      | disjunction => exact operands
      | implication =>
          exact (negate_disjunction_equivalent (Full.implicationFree fullLeft) span span).trans
            operands
  | group body span ih => exact ih full.2
  | quantified q bound body span ih => exact (ih full.2).quantified q bound span span
  | _ => exact Equivalent.rfl

/-- A formula without implications is left as it is. -/
theorem implicationFree_eq_self (without : f.WithoutImplication) : f.implicationFree = f := by
  induction f with
  | neg argument span ih => rw [implicationFree, ih without.2]
  | binary c left right span ihLeft ihRight =>
      obtain ⟨plain, withoutLeft, withoutRight⟩ := without
      cases c with
      | conjunction => simp [implicationFree, ihLeft withoutLeft, ihRight withoutRight]
      | disjunction => simp [implicationFree, ihLeft withoutLeft, ihRight withoutRight]
      | implication => cases plain
  | group body span ih => rw [implicationFree, ih without.2]
  | quantified q bound body span ih => rw [implicationFree, ih without.2]
  | _ => rfl

/-- Every formula without an empty part is brought into one without implications that is true in
the same structures under the same valuations, and it is left as it is when it has none. -/
theorem implicationFree_eliminates (full : f.Full) :
    f.implicationFree.WithoutImplication ∧
      (∀ (M : Structure.{u}) (ρ : Valuation M), f.implicationFree.Holds M ρ ↔ f.Holds M ρ) ∧
      (f.WithoutImplication → f.implicationFree = f) :=
  ⟨withoutImplication_implicationFree f, implicationFree_equivalent full, implicationFree_eq_self⟩

/-- `(A.x (P(x) -> x) -> Q) -> !(Q -> False)`: implications on both sides of another one, below a
quantifier, a negation and parentheses. -/
def nestedImplications : Formula :=
  .binary .implication
    (.group
      (.binary .implication
        (.quantified .universal { name := "x" }
          (.group
            (.binary .implication (.predicate "P" [.var { name := "x" }] .unknown)
              (.term (.var { name := "x" })) .unknown) .unknown) .unknown)
        (.predicate "Q" [] .unknown) .unknown) .unknown)
    (.neg
      (.group
        (.binary .implication (.predicate "Q" [] .unknown) (.literal false .unknown)
          .unknown) .unknown) .unknown) .unknown

theorem implicationFree_eliminates_nestedImplications :
    nestedImplications.Full ∧ nestedImplications.implicationFree.WithoutImplication ∧
      (∀ (M : Structure.{u}) (ρ : Valuation M),
        nestedImplications.implicationFree.Holds M ρ ↔ nestedImplications.Holds M ρ) ∧
      nestedImplications.implicationFree ≠ nestedImplications := by
  have full : nestedImplications.Full := by decide
  obtain ⟨without, same, -⟩ := implicationFree_eliminates full
  exact ⟨full, without, same, by decide⟩

end PredicateLogic.Formula
