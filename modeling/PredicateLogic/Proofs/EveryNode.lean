/-
Module: PredicateLogic.Proofs.EveryNode
Purpose: Conditions that every node of a formula has to meet.
  The shapes that the rewritings lead to are told by what they ask of each single node, at any
  depth: that it is not empty, that it is no implication, that it negates nothing but an atom.
  Most of the rewritings move, add or take away negations, parentheses, conjunctions and
  disjunctions only, so a condition that is indifferent to these is kept (`Indifferent`).
Main exports: Formula.Everywhere, Formula.Indifferent, Formula.Full, Formula.WithoutImplication,
  Formula.NegationsOnAtoms, Formula.everywhere_bare
-/
import PredicateLogic.Formula.Sameness

namespace PredicateLogic.Formula

/-- A condition holds of a formula and of every formula inside it. -/
def Everywhere (condition : Formula → Prop) : Formula → Prop
  | .neg argument span => condition (.neg argument span) ∧ argument.Everywhere condition
  | .binary c left right span =>
      condition (.binary c left right span) ∧
        left.Everywhere condition ∧ right.Everywhere condition
  | .group body span => condition (.group body span) ∧ body.Everywhere condition
  | .quantified q bound body span =>
      condition (.quantified q bound body span) ∧ body.Everywhere condition
  | f => condition f

/-- A condition that can be tested can be tested everywhere. -/
def decideEverywhere (condition : Formula → Prop) [DecidablePred condition] :
    (f : Formula) → Decidable (f.Everywhere condition)
  | .empty span => inferInstanceAs (Decidable (condition (.empty span)))
  | .term t => inferInstanceAs (Decidable (condition (.term t)))
  | .literal value span => inferInstanceAs (Decidable (condition (.literal value span)))
  | .predicate name args span =>
      inferInstanceAs (Decidable (condition (.predicate name args span)))
  | .neg argument span =>
      have := decideEverywhere condition argument
      inferInstanceAs (Decidable (condition (.neg argument span) ∧ _))
  | .binary c left right span =>
      have := decideEverywhere condition left
      have := decideEverywhere condition right
      inferInstanceAs (Decidable (condition (.binary c left right span) ∧ _ ∧ _))
  | .group body span =>
      have := decideEverywhere condition body
      inferInstanceAs (Decidable (condition (.group body span) ∧ _))
  | .quantified q bound body span =>
      have := decideEverywhere condition body
      inferInstanceAs (Decidable (condition (.quantified q bound body span) ∧ _))

instance (condition : Formula → Prop) [DecidablePred condition] :
    DecidablePred (Everywhere condition) :=
  decideEverywhere condition

/-- What holds everywhere holds of the whole. -/
theorem Everywhere.here {condition : Formula → Prop} {f : Formula}
    (everywhere : f.Everywhere condition) : condition f := by
  cases f with
  | neg argument span => exact everywhere.1
  | binary c left right span => exact everywhere.1
  | group body span => exact everywhere.1
  | quantified q bound body span => exact everywhere.1
  | _ => exact everywhere

/-- A condition that holds everywhere may be weakened. -/
theorem Everywhere.imp {condition weaker : Formula → Prop} {f : Formula}
    (weakens : ∀ g, condition g → weaker g) (everywhere : f.Everywhere condition) :
    f.Everywhere weaker := by
  induction f with
  | neg argument span ih => exact ⟨weakens _ everywhere.1, ih everywhere.2⟩
  | binary c left right span ihLeft ihRight =>
      exact ⟨weakens _ everywhere.1, ihLeft everywhere.2.1, ihRight everywhere.2.2⟩
  | group body span ih => exact ⟨weakens _ everywhere.1, ih everywhere.2⟩
  | quantified q bound body span ih => exact ⟨weakens _ everywhere.1, ih everywhere.2⟩
  | _ => exact weakens _ everywhere

/-- An atom has nothing inside, so it meets a condition everywhere if it meets it itself. -/
theorem everywhere_of_isAtom {condition : Formula → Prop} {f : Formula} (atom : f.isAtom = true)
    (here : condition f) : f.Everywhere condition := by
  cases f with
  | term t => exact here
  | literal value span => exact here
  | predicate name args span => exact here
  | _ => cases atom

/-- A condition that concerns atoms, implications and the variables of quantifiers only. -/
structure Indifferent (condition : Formula → Prop) : Prop where
  neg : ∀ argument span, condition (.neg argument span)
  group : ∀ body span, condition (.group body span)
  joined : ∀ c left right span, c ≠ .implication → condition (.binary c left right span)
  operands : ∀ c left left' right right' span span', condition (.binary c left right span) →
    condition (.binary c left' right' span')
  quantified : ∀ q q' bound body body' span span', condition (.quantified q bound body span) →
    condition (.quantified q' bound body' span')

/-!
### Three conditions
-/

/-- Whether nothing is written. -/
def isEmpty : Formula → Bool
  | .empty _ => true
  | _ => false

/-- Whether the root of a formula is an implication. -/
def isImplication : Formula → Bool
  | .binary .implication _ _ _ => true
  | _ => false

/-- Whether a formula negates nothing but an atom: it is no negation, or it is one of an atom. -/
def negatesAtom : Formula → Bool
  | .neg argument _ => argument.isAtom
  | _ => true

/-- No part of the formula is empty. -/
def Full (f : Formula) : Prop := f.Everywhere fun g => g.isEmpty = false

/-- No part of the formula is an implication. -/
def WithoutImplication (f : Formula) : Prop := f.Everywhere fun g => g.isImplication = false

/-- The argument of every negation in the formula is an atom. -/
def NegationsOnAtoms (f : Formula) : Prop := f.Everywhere fun g => g.negatesAtom = true

theorem indifferent_isEmpty : Indifferent fun g => g.isEmpty = false where
  neg _ _ := rfl
  group _ _ := rfl
  joined _ _ _ _ _ := rfl
  operands _ _ _ _ _ _ _ _ := rfl
  quantified _ _ _ _ _ _ _ _ := rfl

theorem indifferent_isImplication : Indifferent fun g => g.isImplication = false where
  neg _ _ := rfl
  group _ _ := rfl
  joined c _ _ _ monotone := by
    cases c with
    | implication => exact absurd rfl monotone
    | conjunction | disjunction => rfl
  operands c _ _ _ _ _ _ plain := by
    cases c with
    | implication => cases plain
    | conjunction | disjunction => rfl
  quantified _ _ _ _ _ _ _ _ := rfl

instance (f : Formula) : Decidable f.Full := inferInstanceAs (Decidable (Everywhere _ f))

instance (f : Formula) : Decidable f.WithoutImplication :=
  inferInstanceAs (Decidable (Everywhere _ f))

instance (f : Formula) : Decidable f.NegationsOnAtoms :=
  inferInstanceAs (Decidable (Everywhere _ f))

/-!
### Conditions and ranges
-/

/-- A condition that does not look at ranges holds everywhere in a formula exactly when it does so
in the formula without its ranges. -/
theorem everywhere_bare {condition : Formula → Prop} (same : ∀ g, condition g.bare ↔ condition g)
    (f : Formula) : f.bare.Everywhere condition ↔ f.Everywhere condition := by
  induction f with
  | empty span => exact same (.empty span)
  | term t => exact same (.term t)
  | literal value span => exact same (.literal value span)
  | predicate name args span => exact same (.predicate name args span)
  | neg argument span ih => exact and_congr (same (.neg argument span)) ih
  | binary c left right span ihLeft ihRight =>
      exact and_congr (same (.binary c left right span)) (and_congr ihLeft ihRight)
  | group body span ih => exact and_congr (same (.group body span)) ih
  | quantified q bound body span ih => exact and_congr (same (.quantified q bound body span)) ih

theorem negatesAtom_bare (f : Formula) : f.bare.negatesAtom = f.negatesAtom := by
  cases f with
  | neg argument span => cases argument <;> rfl
  | _ => rfl

/-- Formulas that differ in their ranges alone negate the same things. -/
theorem SameAs.negationsOnAtoms_iff {f g : Formula} (same : f.SameAs g) :
    f.NegationsOnAtoms ↔ g.NegationsOnAtoms := by
  have invariant : ∀ k : Formula, k.bare.negatesAtom = true ↔ k.negatesAtom = true := by
    intro k
    rw [negatesAtom_bare]
  unfold NegationsOnAtoms
  rw [← everywhere_bare invariant f, ← everywhere_bare invariant g, show f.bare = g.bare from same]

end PredicateLogic.Formula
