/-
Module: PredicateLogic.Proofs.NormalizingChain
Purpose: The four rewritings one after another bring a formula into normal form.
  Implications go first, negations are brought down to atoms, bound variables are renamed and
  quantifiers are pulled to the left.  Each rewriting keeps what those before it have reached, and
  renaming leaves the pulls of the last one nothing to be refused for.
Main exports: Formula.Normalized, Formula.Separated.normalized, Formula.normalized_after_rename
-/
import PredicateLogic.Proofs.ImplicationElimination
import PredicateLogic.Proofs.NegationNormalForm
import PredicateLogic.Proofs.RenamedShapes
import PredicateLogic.Proofs.SeparatedBinders

namespace PredicateLogic.Formula

universe u

/-- What the rewritings lead to: a formula without implications that negates nothing but atoms, whose
binders have names of their own, none of them free, and in which no conjunction or disjunction has a
right operand that starts with a quantifier. -/
structure Normalized (f : Formula) : Prop where
  withoutImplication : f.WithoutImplication
  negationsOnAtoms : f.NegationsOnAtoms
  separated : f.Separated
  pulled : f.Everywhere fun g => g.joinsQuantified = false

/-- A formula whose negations and binders are in order already only has to have its quantifiers
pulled to the left. -/
theorem Separated.normalized {f : Formula} (separated : f.Separated)
    (without : f.WithoutImplication) (normal : f.NegationsOnAtoms) :
    f.pullQuantifiers.Normalized where
  withoutImplication := Everywhere.pullQuantifiers indifferent_isImplication without
  negationsOnAtoms := normal.pullQuantifiers
  separated := separated.pullQuantifiers
  pulled := pullQuantifiers_joinsQuantified separated.unrefused

/-- A formula without an empty part that has its implications written as disjunctions, its negations
brought down to atoms, its bound variables renamed and its quantifiers pulled to the left means the
same as it did and is normalized, and none of the pulls was refused. -/
theorem normalized_after_rename {f g : Formula} (full : f.Full)
    (renamed : f.implicationFree.negationNormal.rename = .ok g) :
    Equivalent.{u} g.pullQuantifiers f ∧ g.pullQuantifiers.Normalized ∧
      g.Everywhere fun h => h.refusesPull = false := by
  have separated := separated_of_rename renamed
  have without : f.implicationFree.negationNormal.WithoutImplication :=
    Everywhere.negationNormal indifferent_isImplication (withoutImplication_implicationFree f)
  have normal := negationsOnAtoms_negationNormal f.implicationFree
  have literal : Equivalent.{u} f.implicationFree.negationNormal f :=
    Equivalent.trans (holds_negationNormal full.implicationFree) (implicationFree_equivalent full)
  have named : Equivalent.{u} g f.implicationFree.negationNormal :=
    (alphaEquivalent_of_rename renamed).equivalent.symm
  exact ⟨(pullQuantifiers_equivalent g).trans (named.trans literal),
    separated.normalized (without.rename renamed) (normal.rename renamed), separated.unrefused⟩

/-- `(A.x P(x) -> E.x Q(x, y)) & !(E.y R(y) | A.x !S(x))`: one name is bound three times, and one is
both bound and free. -/
def clashingThroughout : Formula :=
  let named := fun name : String => ({ name := name } : Variable)
  let holds := fun (p : String) (names : List String) =>
    Formula.predicate p (names.map fun name => .var (named name)) .unknown
  let bind := fun (q : Quantifier) (name : String) (body : Formula) =>
    Formula.quantified q (named name) body .unknown
  .binary .conjunction
    (.group
      (.binary .implication (bind .universal "x" (holds "P" ["x"]))
        (bind .existential "x" (holds "Q" ["x", "y"])) .unknown) .unknown)
    (.neg
      (.group
        (.binary .disjunction (bind .existential "y" (holds "R" ["y"]))
          (bind .universal "x" (.neg (holds "S" ["x"]) .unknown)) .unknown) .unknown) .unknown)
    .unknown

theorem normalized_after_rename_clashingThroughout :
    clashingThroughout.Full ∧
      ∃ g, clashingThroughout.implicationFree.negationNormal.rename = .ok g ∧
        g.pullQuantifiers.text = "E.x E.a A.b E.c ((!P(x) | Q(a, y)) & (!R(b) & S(c)))" ∧
        Equivalent.{u} g.pullQuantifiers clashingThroughout ∧ g.pullQuantifiers.Normalized ∧
        g.Everywhere fun h => h.refusesPull = false := by
  have full : clashingThroughout.Full := by decide
  have printed : clashingThroughout.implicationFree.negationNormal.rename.map
      (fun g => g.pullQuantifiers.text) =
        .ok "E.x E.a A.b E.c ((!P(x) | Q(a, y)) & (!R(b) & S(c)))" := by
    decide +kernel
  cases renamed : clashingThroughout.implicationFree.negationNormal.rename with
  | error e =>
      rw [renamed] at printed
      cases printed
  | ok g =>
      rw [renamed] at printed
      exact ⟨full, g, rfl, Except.ok.inj printed, normalized_after_rename full renamed⟩

end PredicateLogic.Formula
