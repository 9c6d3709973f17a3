/-
Module: PredicateLogic.Formula.NegationNormal
Purpose: Bringing every negation of a formula down to an atom.
Main exports:
  Formula.core, Formula.runLength, Formula.negationNormal
-/
import PredicateLogic.Formula.Negation

namespace PredicateLogic.Formula

/-!
### Runs of negations

A run is a stack of negations, and its core the formula below it.  A run of even length means the
same as its core, and one of odd length the same as one negation of it.
-/

/-- The formula below the negations at the root. -/
def core : Formula → Formula
  | .neg argument _ => argument.core
  | f => f

/-- How many negations are stacked at the root. -/
def runLength : Formula → Nat
  | .neg argument _ => argument.runLength + 1
  | _ => 0

theorem isNegation_core (f : Formula) : f.core.isNegation = false := by
  fun_induction core f with
  | case1 argument span ih => exact ih
  | case2 f h =>
      cases f with
      | neg argument span => exact absurd rfl (h argument span)
      | _ => rfl

theorem weight_core (f : Formula) : f.core.weight = f.weight := by
  fun_induction core f with
  | case1 argument span ih => exact ih
  | case2 f h => rfl

/-!
### The measure

What is visited next has fewer nodes other than negations, or as many and no negation at its root.
-/

/-- The measure that comes down: nodes other than negations first, then whether a negation is at
the root. -/
def runMeasure (f : Formula) : Nat :=
  2 * f.weight + f.isNegation.toNat

theorem runMeasure_le (f : Formula) : f.runMeasure ≤ 2 * f.weight + 1 := by
  have := Bool.toNat_le f.isNegation
  unfold runMeasure
  omega

theorem runMeasure_of_plain {f : Formula} (plain : f.isNegation = false) :
    f.runMeasure = 2 * f.weight := by
  simp [runMeasure, plain]

theorem runMeasure_neg (argument : Formula) (span : Span) :
    (Formula.neg argument span).runMeasure = 2 * argument.weight + 1 := rfl

/-!
### The normal form

The work goes from the root to the leaves.  An even run gives way to its core, and an odd run above
an atom to one negation, which stands where the run stood.  An odd run above a formula with parts
is passed inward, and the result, which may hold more negations than before, is worked on in turn.
-/

/-- The formula with every run of negations reduced to one negation of an atom, or to none. -/
def negationNormal : Formula → Formula
  | .neg argument span =>
      if argument.runLength % 2 = 1 then
        negationNormal argument.core
      else if argument.core.isAtom then
        .neg argument.core span
      else
        negationNormal argument.core.negate
  | .binary c left right span => .binary c (negationNormal left) (negationNormal right) span
  | .group body span => .group (negationNormal body) span
  | .quantified q bound body span => .quantified q bound (negationNormal body) span
  | f => f
termination_by f => f.runMeasure
decreasing_by
  · rw [runMeasure_of_plain (isNegation_core argument), weight_core, runMeasure_neg]
    omega
  · rename_i compound
    have plain := isNegation_negate (by simpa using compound) (isNegation_core argument)
    rw [runMeasure_of_plain plain, weight_negate, weight_core, runMeasure_neg]
    omega
  · have := runMeasure_le left
    simp only [runMeasure, weight] at *
    omega
  · have := runMeasure_le right
    simp only [runMeasure, weight] at *
    omega
  · have := runMeasure_le body
    simp only [runMeasure, weight] at *
    omega
  · have := runMeasure_le body
    simp only [runMeasure, weight] at *
    omega

end PredicateLogic.Formula
