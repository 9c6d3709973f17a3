/-
Module: PredicateLogic.Proofs.NegatedShapes
Purpose: What becomes of the shape of a formula when negations are passed inward.
  Passing a negation inward swaps conjunctions and disjunctions, which bind alike, and turns an
  implication into a conjunction, which binds tighter.  So the shape of a formula that was read
  stays, but for the left operand of such an implication: it may be a chain, and gets no
  parentheses.  `WrittenWith` says how tight left operands have to be, so that one lemma about each
  rewriting covers both the formulas without implications and all the others.
Main exports: Connective.bindingPower_eq, Formula.WrittenWith, Formula.writtenWith_bindingPower,
  Formula.Written.loosely, Formula.WrittenWith.negate, Formula.WrittenWith.negationNormal,
  Formula.WrittenWith.implicationFree
-/
import PredicateLogic.Proofs.ImplicationElimination
import PredicateLogic.Proofs.NegationNormalForm
import PredicateLogic.Proofs.WrittenTrees

namespace PredicateLogic

/-!
### Binding powers

A left operand of a conjunction or disjunction has to be a primary formula, and no connective binds
tight enough to stand at the top of one.
-/

namespace Connective

theorem le_bindingPower (c : Connective) : 40 ≤ c.bindingPower := by
  cases c <;> decide

theorem bindingPower_le (c : Connective) : c.bindingPower ≤ 50 := by
  cases c <;> decide

theorem bindingPower_eq {c : Connective} (monotone : c ≠ .implication) : c.bindingPower = 50 := by
  cases c with
  | implication => exact absurd rfl monotone
  | conjunction | disjunction => rfl

end Connective

namespace Formula

/-- The shape of `Written`, except that the left operand of a connective may have the connectives at
its top that bind tighter than `grip` says. -/
def WrittenWith (grip : Connective → Nat) (power : Nat) : Formula → Prop
  | .empty _ => False
  | .term t => t.Written
  | .literal _ _ => True
  | .predicate _ args _ => ∀ t ∈ args, t.Written
  | .neg argument _ => argument.WrittenWith grip 50
  | .binary c left right _ =>
      power < c.bindingPower ∧ left.WrittenWith grip (grip c) ∧
        right.WrittenWith grip (c.bindingPower - 1)
  | .group body _ => body.WrittenWith grip 0
  | .quantified _ bound body _ => bound.free = none ∧ body.WrittenWith grip 50

/-- The grip that lets a chain stand on the left of every connective. -/
def looseGrip : Connective → Nat := fun _ => 49

variable {grip : Connective → Nat} {power level : Nat} {f : Formula}

/-- What was read holds on to its left operands with the powers of its connectives. -/
theorem writtenWith_bindingPower :
    f.WrittenWith Connective.bindingPower power ↔ f.Written power := by
  induction f generalizing power with
  | neg argument span ih => exact ih
  | binary c left right span ihLeft ihRight =>
      exact and_congr_right fun _ => and_congr ihLeft ihRight
  | group body span ih => exact ih
  | quantified q bound body span ih => exact and_congr_right fun _ => ih
  | _ => exact Iff.rfl

namespace WrittenWith

/-- A primary formula can stand anywhere. -/
theorem ofPrimary (written : f.WrittenWith grip 50) : f.WrittenWith grip power := by
  cases f with
  | binary c left right span => exact absurd written.1 (Nat.not_lt.2 c.bindingPower_le)
  | _ => exact written

/-- A formula that is no implication at its root is a chain. -/
theorem tighten (written : f.WrittenWith grip power) (plain : f.isImplication = false) :
    f.WrittenWith grip 49 := by
  cases f with
  | binary c left right span =>
      cases c with
      | implication => cases plain
      | conjunction | disjunction => exact ⟨by decide, written.2⟩
  | _ => exact written

/-- No connective binds between an implication and the others. -/
theorem tighten_of_le (written : f.WrittenWith grip power) (above : 40 ≤ power) :
    f.WrittenWith grip 49 := by
  apply written.tighten
  cases f with
  | binary c left right span =>
      cases c with
      | implication => exact absurd written.1 (Nat.not_lt.2 above)
      | conjunction | disjunction => rfl
  | _ => rfl

/-- What is written has no empty part. -/
theorem full (written : f.WrittenWith grip power) : f.Full := by
  induction f generalizing power with
  | empty span => exact absurd written id
  | neg argument span ih => exact ⟨rfl, ih written⟩
  | binary c left right span ihLeft ihRight =>
      exact ⟨rfl, ihLeft written.2.1, ihRight written.2.2⟩
  | group body span ih => exact ⟨rfl, ih written⟩
  | quantified q bound body span ih => exact ⟨rfl, ih written.2⟩
  | _ => rfl

end WrittenWith

/-- What was read is written with the loose grip as well. -/
theorem Written.loosely (written : f.Written power) : f.WrittenWith looseGrip power := by
  induction f generalizing power with
  | neg argument span ih => exact ih written
  | binary c left right span ihLeft ihRight =>
      obtain ⟨tighter, writtenLeft, writtenRight⟩ := written
      have chain := (ihLeft writtenLeft).tighten_of_le c.le_bindingPower
      exact ⟨tighter, chain, ihRight writtenRight⟩
  | group body span ih => exact ih written
  | quantified q bound body span ih => exact ⟨written.1, ih written.2⟩
  | _ => exact written

namespace WrittenWith

/-!
### Negation
-/

/-- A negation that has been passed inward leaves no implication at the root. -/
theorem isImplication_negate (written : f.WrittenWith grip power) :
    f.negate.isImplication = false := by
  cases f with
  | neg argument span =>
      cases argument with
      | binary c left right span' => exact absurd written.1 (Nat.not_lt.2 c.bindingPower_le)
      | _ => rfl
  | binary c left right span => cases c <;> rfl
  | quantified q bound body span => cases body <;> rfl
  | _ => rfl

/-- A formula keeps its shape when it is negated, if conjunctions and disjunctions have one grip,
and implications, if there are any, have the grip of conjunctions. -/
theorem negate (alike : grip .disjunction = grip .conjunction)
    (premises : f.WithoutImplication ∨ grip .implication = grip .conjunction)
    (written : f.WrittenWith grip power) : f.negate.WrittenWith grip power := by
  fun_induction Formula.negate f generalizing power with
  | case1 span => exact written
  | case2 t => exact written
  | case3 value span => exact written
  | case4 name args span => exact written
  | case5 argument span => exact ofPrimary written
  | case6 body span ih => exact ih (premises.imp_left And.right) written
  | case7 left right span ihLeft ihRight =>
      obtain ⟨tighter, writtenLeft, writtenRight⟩ := written
      refine ⟨tighter, ?_, ihRight (premises.imp_left fun w => w.2.2) writtenRight⟩
      rw [alike]
      exact ihLeft (premises.imp_left fun w => w.2.1) writtenLeft
  | case8 left right span ihLeft ihRight =>
      obtain ⟨tighter, writtenLeft, writtenRight⟩ := written
      refine ⟨tighter, ?_, ihRight (premises.imp_left fun w => w.2.2) writtenRight⟩
      rw [← alike]
      exact ihLeft (premises.imp_left fun w => w.2.1) writtenLeft
  | case9 left right span ih =>
      obtain ⟨tighter, writtenLeft, writtenRight⟩ := written
      rcases premises with without | same
      · cases without.1
      · have negated := ih (Or.inr same) writtenRight
        rw [same] at writtenLeft
        exact ⟨Nat.lt_trans tighter (by decide), writtenLeft,
          negated.tighten writtenRight.isImplication_negate⟩
  | case10 q bound body inner span => exact written
  | case11 q bound body span notGroup ih =>
      exact ⟨written.1, ih (premises.imp_left And.right) written.2⟩

/-!
### The normal form of negations
-/

/-- Below a run of negations stands a primary formula. -/
theorem core (written : f.WrittenWith grip 50) : f.core.WrittenWith grip 50 := by
  fun_induction Formula.core f with
  | case1 argument span ih => exact ih written
  | case2 f plain => exact written

/-- A formula keeps its shape when its negations are brought down to atoms, under the same
conditions. -/
theorem negationNormal (alike : grip .disjunction = grip .conjunction)
    (premises : f.WithoutImplication ∨ grip .implication = grip .conjunction)
    (written : f.WrittenWith grip power) : f.negationNormal.WrittenWith grip power := by
  fun_induction Formula.negationNormal f generalizing power with
  | case1 argument span odd ih =>
      exact ih (premises.imp_left fun w => w.2.core) (core written).ofPrimary
  | case2 argument span even atom => exact core written
  | case3 argument span even compound ih =>
      have premises' := premises.imp_left fun w => w.2.core
      have negated := (core written).negate alike premises'
      exact ih (premises'.imp_left WithoutImplication.negate) negated.ofPrimary
  | case4 c left right span ihLeft ihRight =>
      obtain ⟨tighter, writtenLeft, writtenRight⟩ := written
      exact ⟨tighter, ihLeft (premises.imp_left fun w => w.2.1) writtenLeft,
        ihRight (premises.imp_left fun w => w.2.2) writtenRight⟩
  | case5 body span ih => exact ih (premises.imp_left And.right) written
  | case6 q bound body span ih =>
      exact ⟨written.1, ih (premises.imp_left And.right) written.2⟩
  | case7 f _ _ _ _ => exact written

/-!
### Implications as disjunctions
-/

/-- With the loose grip a formula keeps its shape when its implications become disjunctions. -/
theorem implicationFree (written : f.WrittenWith looseGrip power) :
    f.implicationFree.WrittenWith looseGrip power := by
  induction f generalizing power with
  | neg argument span ih => exact ih written
  | binary c left right span ihLeft ihRight =>
      obtain ⟨tighter, writtenLeft, writtenRight⟩ := written
      cases c with
      | conjunction => exact ⟨tighter, ihLeft writtenLeft, ihRight writtenRight⟩
      | disjunction => exact ⟨tighter, ihLeft writtenLeft, ihRight writtenRight⟩
      | implication =>
          have plain := (withoutImplication_implicationFree right).here
          exact ⟨Nat.lt_trans tighter (by decide), (ihLeft writtenLeft).negate rfl (Or.inr rfl),
            (ihRight writtenRight).tighten plain⟩
  | group body span ih => exact ih written
  | quantified q bound body span ih => exact ⟨written.1, ih written.2⟩
  | _ => exact written

end WrittenWith

end Formula

end PredicateLogic
