/-
Module: PredicateLogic.Proofs.NegationLaws
Purpose: How negating a formula goes together with bringing its negations down to atoms.
  Whether a negation is passed inward by one step or put in front as a node of its own, the
  negations come down to the same atoms: what counts is the core of a run and the parity of the run.
  Twice negated, a formula without implications comes down to the same as before, since its literal
  form has turned round twice; and if nothing but its atoms was negated, it is the formula itself.
Main exports: Formula.negationNormal_of_even, Formula.negationNormal_of_odd,
  Formula.negationNormal_negate, Formula.negationNormal_negate_negate,
  Formula.negate_negate_sameAs, Formula.negations_cancel
-/
import PredicateLogic.Formula.Text
import PredicateLogic.Proofs.Polarity

namespace PredicateLogic.Formula

variable {f : Formula} {q : Quantifier} {v : Variable} {span : Span}

/-!
### Runs of negations
-/

/-- The negation of an atom is one negation in front of it. -/
theorem exists_negate_eq_neg (atom : f.isAtom = true) : ∃ span, f.negate = .neg f span := by
  cases f with
  | term t => exact ⟨_, rfl⟩
  | literal value span => exact ⟨_, rfl⟩
  | predicate name args span => exact ⟨_, rfl⟩
  | _ => cases atom

/-- One negation of an atom has no other to be reduced with. -/
theorem negationNormal_neg_of_isAtom (atom : f.isAtom = true) (span : Span) :
    (Formula.neg f span).negationNormal = .neg f span := by
  apply negationNormal_eq_self
  refine ⟨atom, everywhere_of_isAtom atom ?_⟩
  cases f with
  | neg argument inner => cases atom
  | _ => rfl

/-- A run of even length gives way to its core. -/
theorem negationNormal_of_even (even : f.runLength % 2 = 0) :
    f.negationNormal = f.core.negationNormal := by
  cases f with
  | neg argument span =>
      have odd : argument.runLength % 2 = 1 := by
        rw [runLength] at even
        omega
      rw [negationNormal, if_pos odd, core]
  | _ => rfl

/-- A run of odd length comes down to the same as the negation of its core. -/
theorem negationNormal_of_odd (odd : f.runLength % 2 = 1) :
    f.negationNormal.SameAs f.core.negate.negationNormal := by
  cases f with
  | neg argument span =>
      have even : ¬ argument.runLength % 2 = 1 := by
        rw [runLength] at odd
        omega
      rw [negationNormal, if_neg even, core]
      split
      case isTrue atom =>
        obtain ⟨span', negated⟩ := exists_negate_eq_neg atom
        rw [negated, negationNormal_neg_of_isAtom atom]
        exact SameAs.rfl.neg
      case isFalse => exact SameAs.rfl
  | _ => cases odd

/-- The core of a formula that starts with no negation is the formula. -/
theorem core_eq_self (plain : f.isNegation = false) : f.core = f := by
  cases f with
  | neg argument span => cases plain
  | _ => rfl

theorem runLength_eq_zero (plain : f.isNegation = false) : f.runLength = 0 := by
  cases f with
  | neg argument span => cases plain
  | _ => rfl

/-- Passed inward or put in front, a negation comes down to the same. -/
theorem negationNormal_negate (f : Formula) (span : Span) :
    f.negate.negationNormal.SameAs (Formula.neg f span).negationNormal := by
  cases negated : f.isNegation with
  | false =>
      have odd : (Formula.neg f span).runLength % 2 = 1 := by
        rw [runLength, runLength_eq_zero negated]
      have outer := negationNormal_of_odd odd
      rw [core, core_eq_self negated] at outer
      exact outer.symm
  | true =>
      cases f with
      | neg argument inner =>
          -- Two negations in front of the argument, or none, make a run of the same parity.
          rw [negate]
          rcases Nat.mod_two_eq_zero_or_one argument.runLength with even | odd
          · have outer := negationNormal_of_even
              (f := .neg (.neg argument inner) span) (by rw [runLength, runLength]; omega)
            rw [negationNormal_of_even even, outer, core, core]
            exact SameAs.rfl
          · have outer := negationNormal_of_odd
              (f := .neg (.neg argument inner) span) (by rw [runLength, runLength]; omega)
            rw [core, core] at outer
            exact (negationNormal_of_odd odd).trans outer.symm
      | _ => cases negated

/-!
### Negating twice
-/

/-- Twice negated, a formula without implications comes down to the same as before. -/
theorem negationNormal_negate_negate (without : f.WithoutImplication) :
    f.negate.negate.negationNormal.SameAs f.negationNormal := by
  calc f.negate.negate.negationNormal.bare
      = polarForm true f.negate.negate := negationNormal_bare without.negate.negate
    _ = polarForm true f := by rw [polarForm_negate, polarForm_negate, Bool.not_not]
    _ = f.negationNormal.bare := (negationNormal_bare without).symm

/-- The body of a quantifier is entered unless it stands in parentheses. -/
theorem negate_quantified (plain : f.isGroup = false) :
    (Formula.quantified q v f span).negate = .quantified q.dual v f.negate span := by
  cases f with
  | group body inner => cases plain
  | _ => rfl

/-- Where nothing but atoms is negated, negation brings no parentheses to the root. -/
theorem isGroup_negate (normal : f.NegationsOnAtoms) (plain : f.isGroup = false) :
    f.negate.isGroup = false := by
  cases f with
  | neg argument span =>
      have atom : argument.isAtom = true := normal.1
      cases argument with
      | group body inner => cases atom
      | _ => rfl
  | group body span => cases plain
  | binary c left right span => cases c <;> rfl
  | quantified q bound body span => cases body <;> rfl
  | _ => rfl

/-- A formula without implications in which nothing but atoms is negated is its own double
negation, with all its parentheses. -/
theorem negate_negate_sameAs (without : f.WithoutImplication) (normal : f.NegationsOnAtoms) :
    f.negate.negate.SameAs f := by
  induction f with
  | neg argument span ih =>
      obtain ⟨span', negated⟩ := exists_negate_eq_neg (f := argument) normal.1
      rw [negate, negated]
      exact SameAs.rfl.neg
  | binary c left right span ihLeft ihRight =>
      have sameLeft := ihLeft without.2.1 normal.2.1
      have sameRight := ihRight without.2.2 normal.2.2
      cases c with
      | implication => cases without.1
      | conjunction | disjunction => exact sameLeft.binary sameRight
  | group body span ih => exact (ih without.2 normal.2).group
  | quantified q bound body span ih =>
      cases grouped : body.isGroup with
      | true =>
          cases body with
          | group inside inner =>
              -- The group was negated as a whole, and the negation is taken off it again.
              simp only [negate, Quantifier.dual_dual]
              exact SameAs.rfl
          | _ => cases grouped
      | false =>
          rw [negate_quantified grouped, negate_quantified (isGroup_negate normal.2 grouped),
            Quantifier.dual_dual]
          exact SameAs.quantified rfl (ih without.2 normal.2)
  | _ => exact SameAs.rfl

/-!
### The laws together
-/

/-- Negating a formula and putting a negation in front of it come down to the same when negations
are brought down to atoms.  So do a formula without implications and its double negation, and if
nothing but atoms is negated in such a formula, it is its own double negation as it stands. -/
theorem negations_cancel (f : Formula) (span : Span) :
    f.negate.negationNormal.SameAs (Formula.neg f span).negationNormal ∧
      (f.WithoutImplication → f.negate.negate.negationNormal.SameAs f.negationNormal) ∧
      (f.WithoutImplication → f.NegationsOnAtoms → f.negate.negate.SameAs f) :=
  ⟨negationNormal_negate f span, negationNormal_negate_negate, negate_negate_sameAs⟩

/-- `A.x (P(x) | !Q) & E.y !R(y)`: one quantifier with a body in parentheses, and one without. -/
def groupedBody : Formula :=
  .binary .conjunction
    (.quantified .universal { name := "x" }
      (.group
        (.binary .disjunction (.predicate "P" [.var { name := "x" }] .unknown)
          (.neg (.predicate "Q" [] .unknown) .unknown) .unknown) .unknown) .unknown)
    (.quantified .existential { name := "y" }
      (.neg (.predicate "R" [.var { name := "y" }] .unknown) .unknown) .unknown) .unknown

theorem negations_cancel_groupedBody :
    groupedBody.WithoutImplication ∧ groupedBody.NegationsOnAtoms ∧
      groupedBody.negate.text = "E.x !(P(x) | !Q) | A.y R(y)" ∧
      groupedBody.negate.negationNormal.SameAs
        (Formula.neg groupedBody .unknown).negationNormal ∧
      groupedBody.negate.negate.negationNormal.SameAs groupedBody.negationNormal ∧
      groupedBody.negate.negate.SameAs groupedBody := by
  have without : groupedBody.WithoutImplication := by decide
  have normal : groupedBody.NegationsOnAtoms := by decide
  obtain ⟨inFront, twice, itself⟩ := negations_cancel groupedBody .unknown
  exact ⟨without, normal, by decide +kernel, inFront, twice without, itself without normal⟩

end PredicateLogic.Formula
