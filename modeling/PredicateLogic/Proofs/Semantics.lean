/-
Module: PredicateLogic.Proofs.Semantics
Purpose: What terms and formulas mean in a structure, and when two formulas mean the same.
  A formula is read over a non-empty domain, with function and predicate symbols interpreted by
  their name and their list of arguments.  A term that stands where a formula is expected counts as
  true or false by one fixed test of its value.
Main exports: Structure, Valuation, Term.value, Connective.Join, Quantifier.Over, Formula.Holds,
  Formula.Equivalent, Formula.SameAs.equivalent
-/
import Mathlib.Logic.Basic
import Mathlib.Logic.Function.Basic
import PredicateLogic.Term.Occurrences
import PredicateLogic.Formula.Sameness

namespace PredicateLogic

universe u

/-- A non-empty domain, with a meaning for every function and predicate symbol, and a test that
says which values count as true where a term stands as a formula. -/
structure Structure where
  Domain : Type u
  inhabited : Nonempty Domain
  function : String → List Domain → Domain
  predicate : String → List Domain → Prop
  truth : Domain → Prop

instance (M : Structure.{u}) : Nonempty M.Domain := M.inhabited

/-- An assignment of values to all names of variables and constants. -/
abbrev Valuation (M : Structure.{u}) := String → M.Domain

/-!
### Terms
-/

mutual

/-- The value of a term. -/
def Term.value (M : Structure.{u}) (ρ : Valuation M) : Term → M.Domain
  | .var v => ρ v.name
  | .app name args _ => M.function name (Term.values M ρ args)

/-- The values of terms. -/
def Term.values (M : Structure.{u}) (ρ : Valuation M) : List Term → List M.Domain
  | [] => []
  | t :: ts => t.value M ρ :: Term.values M ρ ts

end

@[simp] theorem Term.values_eq_map (M : Structure.{u}) (ρ : Valuation M) (ts : List Term) :
    Term.values M ρ ts = ts.map (Term.value M ρ) := by
  induction ts with
  | nil => rfl
  | cons t ts ih => simp [Term.values, ih]

/-- The value of a term depends on the names in it alone. -/
theorem Term.value_congr {M : Structure.{u}} {ρ σ : Valuation M} {t : Term}
    (agree : ∀ v ∈ t.occurrences, ρ v.name = σ v.name) : t.value M ρ = t.value M σ := by
  induction t with
  | var v => exact agree v (by simp [occurrences])
  | app name args span ih =>
      have sameValues : args.map (Term.value M ρ) = args.map (Term.value M σ) := by
        apply List.map_congr_left
        intro t member
        apply ih t member
        intro v occurs
        apply agree
        simp only [occurrences, occurrencesList_eq_flatMap, List.mem_flatMap]
        exact ⟨t, member, occurs⟩
      simp only [value, values_eq_map, sameValues]

/-- Ranges have no part in the value of a term. -/
theorem Term.value_bare (M : Structure.{u}) (ρ : Valuation M) (t : Term) :
    t.bare.value M ρ = t.value M ρ := by
  induction t with
  | var v => rfl
  | app name args span ih =>
      simp only [bare, value, values_eq_map, bareList_eq_map, List.map_map]
      exact congrArg (M.function name) (List.map_congr_left ih)

/-!
### Connectives and quantifiers

The meaning of a connective joins two propositions, and the meaning of a quantifier ranges over the
domain.
-/

/-- The meaning of a connective. -/
def Connective.Join : Connective → Prop → Prop → Prop
  | .conjunction, P, Q => P ∧ Q
  | .disjunction, P, Q => P ∨ Q
  | .implication, P, Q => P → Q

/-- The meaning of a quantifier. -/
def Quantifier.Over {D : Type u} : Quantifier → (D → Prop) → Prop
  | .universal, P => ∀ d, P d
  | .existential, P => ∃ d, P d

theorem Connective.join_congr (c : Connective) {P P' Q Q' : Prop} (left : P ↔ P')
    (right : Q ↔ Q') : c.Join P Q ↔ c.Join P' Q' := by
  rw [propext left, propext right]

theorem Quantifier.over_congr {D : Type u} (q : Quantifier) {P Q : D → Prop}
    (same : ∀ d, P d ↔ Q d) : q.Over P ↔ q.Over Q := by
  rw [funext fun d => propext (same d)]

/-- A quantifier passes over a conjunction or disjunction whose right side it does not concern.
The domain must not be empty here. -/
theorem Quantifier.over_join_left {D : Type u} [Nonempty D] (q : Quantifier) {c : Connective}
    (monotone : c ≠ .implication) (P : D → Prop) (F : Prop) :
    q.Over (fun d => c.Join (P d) F) ↔ c.Join (q.Over P) F := by
  cases c with
  | conjunction => cases q <;> simp [Over, Connective.Join, forall_and]
  | disjunction => cases q <;> simp [Over, Connective.Join, forall_or_right, exists_or]
  | implication => exact absurd rfl monotone

/-- A quantifier passes over a conjunction or disjunction whose left side it does not concern. -/
theorem Quantifier.over_join_right {D : Type u} [Nonempty D] (q : Quantifier) {c : Connective}
    (monotone : c ≠ .implication) (F : Prop) (P : D → Prop) :
    q.Over (fun d => c.Join F (P d)) ↔ c.Join F (q.Over P) := by
  cases c with
  | conjunction => cases q <;> simp [Over, Connective.Join, forall_and]
  | disjunction => cases q <;> simp [Over, Connective.Join, forall_or_left, exists_or]
  | implication => exact absurd rfl monotone

/-!
### Formulas
-/

namespace Formula

/-- Whether a formula is true in a structure under a valuation.  The empty formula asserts
nothing. -/
def Holds (M : Structure.{u}) (ρ : Valuation M) : Formula → Prop
  | .empty _ => True
  | .term t => M.truth (t.value M ρ)
  | .literal value _ => value = true
  | .predicate name args _ => M.predicate name (args.map (Term.value M ρ))
  | .neg argument _ => ¬ argument.Holds M ρ
  | .binary c left right _ => c.Join (left.Holds M ρ) (right.Holds M ρ)
  | .group body _ => body.Holds M ρ
  | .quantified q bound body _ =>
      q.Over fun d => body.Holds M (Function.update ρ bound.name d)

/-- The two formulas have the same truth value in every structure under every valuation. -/
def Equivalent (f g : Formula) : Prop :=
  ∀ (M : Structure.{u}) (ρ : Valuation M), f.Holds M ρ ↔ g.Holds M ρ

/-!
### Equivalence

Equivalence is a congruence: equivalent formulas may be exchanged below every node.
-/

namespace Equivalent

variable {f f' g g' k : Formula}

theorem rfl : Equivalent.{u} f f := fun _ _ => Iff.rfl

theorem symm (h : Equivalent.{u} f g) : Equivalent.{u} g f := fun M ρ => (h M ρ).symm

theorem trans (h₁ : Equivalent.{u} f g) (h₂ : Equivalent.{u} g k) : Equivalent.{u} f k :=
  fun M ρ => (h₁ M ρ).trans (h₂ M ρ)

theorem neg (h : Equivalent.{u} f g) (span span' : Span) :
    Equivalent.{u} (.neg f span) (.neg g span') :=
  fun M ρ => not_congr (h M ρ)

theorem binary (c : Connective) (left : Equivalent.{u} f f') (right : Equivalent.{u} g g')
    (span span' : Span) : Equivalent.{u} (.binary c f g span) (.binary c f' g' span') :=
  fun M ρ => c.join_congr (left M ρ) (right M ρ)

/-- Parentheses have no meaning of their own. -/
theorem group (f : Formula) (span : Span) : Equivalent.{u} (.group f span) f :=
  fun _ _ => Iff.rfl

theorem quantified (q : Quantifier) (bound : Variable) (h : Equivalent.{u} f g)
    (span span' : Span) :
    Equivalent.{u} (.quantified q bound f span) (.quantified q bound g span') :=
  fun M ρ => q.over_congr fun d => h M (Function.update ρ bound.name d)

end Equivalent

/-!
### Ranges
-/

/-- Ranges have no part in the truth of a formula. -/
theorem holds_bare (M : Structure.{u}) (ρ : Valuation M) (f : Formula) :
    f.bare.Holds M ρ ↔ f.Holds M ρ := by
  induction f generalizing ρ with
  | empty span => exact Iff.rfl
  | term t => simp only [bare, Holds, Term.value_bare]
  | literal value span => exact Iff.rfl
  | predicate name args span =>
      have values : (args.map Term.bare).map (Term.value M ρ) = args.map (Term.value M ρ) := by
        rw [List.map_map]
        exact List.map_congr_left fun t _ => t.value_bare M ρ
      simp only [bare, Holds, values]
  | neg argument span ih => exact not_congr (ih ρ)
  | binary c left right span ihLeft ihRight => exact c.join_congr (ihLeft ρ) (ihRight ρ)
  | group body span ih => exact ih ρ
  | quantified q bound body span ih =>
      exact q.over_congr fun d => ih (Function.update ρ bound.name d)

/-- Formulas that differ in their ranges alone mean the same. -/
theorem SameAs.equivalent {f g : Formula} (same : f.SameAs g) : Equivalent.{u} f g := by
  intro M ρ
  rw [← holds_bare M ρ f, show f.bare = g.bare from same, holds_bare]

/-- A structure that tells a formula apart from another one tells its copies with other ranges apart
from it as well. -/
theorem SameAs.not_equivalent {f g k : Formula} (same : g.SameAs k) (M : Structure.{u})
    (ρ : Valuation M) (differ : ¬ (k.Holds M ρ ↔ f.Holds M ρ)) : ¬ Equivalent.{u} g f :=
  fun equivalent => differ ((same.equivalent.symm M ρ).trans (equivalent M ρ))

end Formula

end PredicateLogic
