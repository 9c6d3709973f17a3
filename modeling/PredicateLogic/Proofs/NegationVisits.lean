/-
Module: PredicateLogic.Proofs.NegationVisits
Purpose: Bringing the negations of a formula down to its atoms comes to an end.
  An odd run of negations leads to a formula that is no part of the one at hand and may have more
  nodes.  So one visit is told with the visits that it calls for left open, and a run of visits may
  be stacked to a given depth only and has no outcome beyond it.  Every visit calls for visits of
  formulas with fewer nodes other than negations, or as many and no negation at the root, which
  gives a depth at which the run comes to the normal form.
Main exports: Formula.visit, Formula.visited, Formula.visitWithin, Formula.visit_eq_some,
  Formula.Descends, Formula.descends_of_mem_visited, Formula.visitWithin_eq_some,
  Formula.negationNormal_comes_to_an_end
-/
import Mathlib.Data.Bool.Basic
import Mathlib.Data.Prod.Lex
import PredicateLogic.Formula.NegationNormal

namespace PredicateLogic.Formula

variable {f g : Formula} {next : Formula → Option Formula} {depth : Nat}

/-!
### One visit

A visit takes a run of negations at the root in one step, and has the formulas below visited in
turn.  Arguments are visited, too, although nothing in them changes.
-/

/-- The term that a formula consists of, if it is one. -/
def term? : Formula → Option Term
  | .term t => some t
  | _ => none

/-- Visits the arguments of a predicate or function symbol from left to right. -/
def visitArguments (next : Formula → Option Formula) (args : List Term) : Option (List Term) :=
  args.mapM fun argument => do (← next (.term argument)).term?

/-- One visit.  What comes of the visits that it calls for is left to `next`, and nothing comes of a
visit if nothing comes of one of those. -/
def visit (next : Formula → Option Formula) : Formula → Option Formula
  | .term (.app name args span) => do return .term (.app name (← visitArguments next args) span)
  | .predicate name args span => do return .predicate name (← visitArguments next args) span
  | .neg argument span =>
      if argument.runLength % 2 = 1 then
        next argument.core
      else if argument.core.isAtom then do
        return .neg (← next argument.core) span
      else
        next argument.core.negate
  | .binary c left right span => do return .binary c (← next left) (← next right) span
  | .group body span => do return .group (← next body) span
  | .quantified q bound body span => do return .quantified q bound (← next body) span
  | f => some f

/-- The formulas that a visit calls for a visit of, in the order of the calls. -/
def visited : Formula → List Formula
  | .term (.app _ args _) => args.map .term
  | .predicate _ args _ => args.map .term
  | .neg argument _ =>
      if argument.runLength % 2 = 1 ∨ argument.core.isAtom then
        [argument.core]
      else
        [argument.core.negate]
  | .binary _ left right _ => [left, right]
  | .group body _ => [body]
  | .quantified _ _ body _ => [body]
  | _ => []

/-- What comes of visits that may be stacked to a depth: nothing if they are stacked deeper. -/
def visitWithin : Nat → Formula → Option Formula
  | 0, _ => none
  | depth + 1, f => f.visit (visitWithin depth)

/-!
### What a visit comes to
-/

/-- Nothing in an atom is negated. -/
theorem negationNormal_of_isAtom (atom : f.isAtom = true) : f.negationNormal = f := by
  cases f with
  | term t => simp [negationNormal]
  | literal value span => simp [negationNormal]
  | predicate name args span => simp [negationNormal]
  | _ => cases atom

/-- Arguments whose visits come to their normal forms stay as they are. -/
theorem visitArguments_eq_some {args : List Term}
    (settled : ∀ argument ∈ args,
      next (.term argument) = some (Formula.term argument).negationNormal) :
    visitArguments next args = some args := by
  unfold visitArguments
  induction args with
  | nil => rfl
  | cons first rest ih =>
      have here := settled first List.mem_cons_self
      have others := ih fun argument member => settled argument (List.mem_cons_of_mem _ member)
      rw [negationNormal_of_isAtom rfl] at here
      simp only [List.mapM_cons, here, others]
      rfl

/-- A visit comes to the normal form as soon as the visits that it calls for do, whatever comes of
visits of other formulas: there are no other calls. -/
theorem visit_eq_some (settled : ∀ g ∈ f.visited, next g = some g.negationNormal) :
    f.visit next = some f.negationNormal := by
  cases f with
  | empty span => simp [visit, negationNormal]
  | literal value span => simp [visit, negationNormal]
  | term t =>
      cases t with
      | var v => simp [visit, negationNormal]
      | app name args span =>
          have arguments := visitArguments_eq_some fun argument member =>
            settled (.term argument) (List.mem_map_of_mem member)
          simp [visit, arguments, negationNormal]
  | predicate name args span =>
      have arguments := visitArguments_eq_some fun argument member =>
        settled (.term argument) (List.mem_map_of_mem member)
      simp [visit, arguments, negationNormal]
  | neg argument span =>
      rw [visit, negationNormal]
      split
      case isTrue odd =>
        exact settled _ (by simp [visited, odd])
      case isFalse even =>
        split
        case isTrue atom =>
          rw [settled argument.core (by simp [visited, atom]), negationNormal_of_isAtom atom]
          rfl
        case isFalse compound =>
          exact settled _ (by simp [visited, even, compound])
  | binary c left right span =>
      simp [visit, negationNormal, settled left (by simp [visited]),
        settled right (by simp [visited])]
  | group body span => simp [visit, negationNormal, settled body (by simp [visited])]
  | quantified q bound body span =>
      simp [visit, negationNormal, settled body (by simp [visited])]

/-!
### Every visit descends

Passing a negation inward keeps the number of the other nodes and leaves no negation at the root of
a formula with parts, so an odd run leads on to a formula of the same size without a negation at its
root.  All other visits lead to a part of the formula.
-/

/-- A formula leads down to another that has fewer nodes other than negations, or as many and no
negation at its root where the first has one. -/
def Descends (f g : Formula) : Prop :=
  toLex (g.weight, g.isNegation) < toLex (f.weight, f.isNegation)

theorem descends_of_weight_lt (lighter : g.weight < f.weight) : f.Descends g :=
  Prod.Lex.toLex_lt_toLex.2 (Or.inl lighter)

/-- A negation leads down to what weighs as much as its argument and is not negated. -/
theorem descends_of_neg {argument : Formula} {span : Span} (same : g.weight = argument.weight)
    (plain : g.isNegation = false) : (Formula.neg argument span).Descends g :=
  Prod.Lex.toLex_lt_toLex.2 (Or.inr ⟨same, Bool.lt_iff.2 ⟨plain, rfl⟩⟩)

theorem runMeasure_lt_of_descends (descends : f.Descends g) : g.runMeasure < f.runMeasure := by
  have := runMeasure_le g
  unfold runMeasure at *
  rcases Prod.Lex.toLex_lt_toLex.1 descends with lighter | ⟨same, root⟩
  · simp only at lighter
    omega
  · obtain ⟨plain, negated⟩ := Bool.lt_iff.1 root
    simp only at same plain negated
    simp [same, plain, negated]

theorem weight_term_le {args : List Term} {argument : Term} (member : argument ∈ args) :
    (Formula.term argument).weight ≤ Term.sizeList args := by
  induction args with
  | nil => exact absurd member List.not_mem_nil
  | cons first rest ih =>
      rw [Term.sizeList]
      rcases List.mem_cons.1 member with rfl | member
      · exact Nat.le_add_right _ _
      · exact Nat.le_trans (ih member) (Nat.le_add_left _ _)

/-- Every visit calls only for visits of formulas that the one at hand leads down to. -/
theorem descends_of_mem_visited (called : g ∈ f.visited) : f.Descends g := by
  cases f with
  | empty span => exact absurd called List.not_mem_nil
  | literal value span => exact absurd called List.not_mem_nil
  | term t =>
      cases t with
      | var v => exact absurd called List.not_mem_nil
      | app name args span =>
          obtain ⟨argument, member, rfl⟩ := List.mem_map.1 called
          exact descends_of_weight_lt (Nat.lt_succ_of_le (weight_term_le member))
  | predicate name args span =>
      obtain ⟨argument, member, rfl⟩ := List.mem_map.1 called
      exact descends_of_weight_lt (Nat.lt_succ_of_le (weight_term_le member))
  | neg argument span =>
      rw [visited] at called
      have plain := isNegation_core argument
      split at called
      case isTrue =>
        rw [List.mem_singleton.1 called]
        exact descends_of_neg (weight_core argument) plain
      case isFalse compound =>
        have compound : argument.core.isAtom = false := by simpa using (not_or.1 compound).2
        rw [List.mem_singleton.1 called]
        exact descends_of_neg ((weight_negate _).trans (weight_core argument))
          (isNegation_negate compound plain)
  | binary c left right span =>
      apply descends_of_weight_lt
      rw [weight]
      rcases List.mem_cons.1 called with rfl | called
      · omega
      · rw [List.mem_singleton.1 called]
        omega
  | group body span =>
      rw [List.mem_singleton.1 called]
      exact descends_of_weight_lt (Nat.lt_succ_self _)
  | quantified q bound body span =>
      rw [List.mem_singleton.1 called]
      exact descends_of_weight_lt (Nat.lt_add_of_pos_right (by decide))

/-!
### The visits come to an end
-/

/-- Where more visits may be stacked than the measure says, they come to the normal form. -/
theorem visitWithin_eq_some (deep : f.runMeasure < depth) :
    visitWithin depth f = some f.negationNormal := by
  induction depth generalizing f with
  | zero => exact absurd deep (Nat.not_lt_zero _)
  | succ depth ih =>
      rw [visitWithin]
      apply visit_eq_some
      intro g called
      have lower := runMeasure_lt_of_descends (descends_of_mem_visited called)
      exact ih (by omega)

/-- Bringing the negations of any formula down to its atoms comes to an end.  A visit calls for
visits only of formulas that have fewer nodes other than negations, or as many and no negation at
the root where the formula at hand has one.  It needs no other visits to come to the normal form,
and the run of visits comes to it once more than `2 * weight + 1` of them may be stacked.  What
carries this is that passing a negation inward keeps the number of those nodes, and leaves no
negation at the root of a formula with parts that is not negated. -/
theorem negationNormal_comes_to_an_end (f : Formula) :
    (∀ g ∈ f.visited, toLex (g.weight, g.isNegation) < toLex (f.weight, f.isNegation)) ∧
      (∀ next : Formula → Option Formula, (∀ g ∈ f.visited, next g = some g.negationNormal) →
        f.visit next = some f.negationNormal) ∧
      (∀ depth, 2 * f.weight + 1 < depth → visitWithin depth f = some f.negationNormal) ∧
      f.negate.weight = f.weight ∧
      (f.isAtom = false → f.isNegation = false → f.negate.isNegation = false) := by
  refine ⟨fun g => descends_of_mem_visited, fun next => visit_eq_some, ?_, weight_negate f,
    isNegation_negate⟩
  intro depth deep
  exact visitWithin_eq_some (Nat.lt_of_le_of_lt (runMeasure_le f) deep)

/-- `!(P & A.x (Q & R))`: the visit that it calls for is of `!P | E.x !(Q & R)`, which has one node
more. -/
def spreadNegation : Formula :=
  let proposition := fun name => Formula.predicate name [] .unknown
  .neg
    (.binary .conjunction (proposition "P")
      (.quantified .universal { name := "x" }
        (.group (.binary .conjunction (proposition "Q") (proposition "R") .unknown) .unknown)
        .unknown) .unknown) .unknown

theorem negationNormal_comes_to_an_end_spreadNegation :
    spreadNegation.core.isAtom = false ∧ spreadNegation.core.isNegation = false ∧
      spreadNegation.core.negate.isNegation = false ∧
      spreadNegation.core.negate ∈ spreadNegation.visited ∧
      toLex (spreadNegation.core.negate.weight, spreadNegation.core.negate.isNegation) <
        toLex (spreadNegation.weight, spreadNegation.isNegation) ∧
      2 * spreadNegation.weight + 1 < 18 ∧
      visitWithin 18 spreadNegation = some spreadNegation.negationNormal ∧
      spreadNegation.visit (visitWithin 18) = some spreadNegation.negationNormal := by
  obtain ⟨descends, settles, ends, -, -⟩ := negationNormal_comes_to_an_end spreadNegation
  obtain ⟨-, -, -, -, plain⟩ := negationNormal_comes_to_an_end spreadNegation.core
  have called : spreadNegation.core.negate ∈ spreadNegation.visited := by decide
  have deep : 2 * spreadNegation.weight + 1 < 18 := by decide
  have inner := (negationNormal_comes_to_an_end spreadNegation.core.negate).2.2.1 18 (by decide)
  have settled : ∀ g ∈ spreadNegation.visited, visitWithin 18 g = some g.negationNormal :=
    fun g member => List.mem_singleton.1 member ▸ inner
  exact ⟨by decide, by decide, plain (by decide) (by decide), called, descends _ called, deep,
    ends 18 deep, settles _ settled⟩

end PredicateLogic.Formula
