/-
Module: PredicateLogic.Proofs.PrintedMeaning
Purpose: What the printed text of a rewritten formula means when it is read back.
  Writing out implications and passing negations inward can leave a chain on the left of a
  connective, and printing puts no parentheses around it, so the text is read as the formula grouped
  to the right.  That means the same as what was computed when no such chain mixes connectives, and
  can mean something else when one does.  Chains come from premises, and a premise matters only to
  the rewritings that reach its implication; if no premise of a formula has a disjunction outside
  parentheses, none of them goes wrong.
Main exports: Formula.WrittenWith.parses, Formula.printed_rewritings_regroup,
  Formula.printed_rewritings_equivalent
-/
import PredicateLogic.Proofs.Regrouping
import PredicateLogic.Proofs.RoundTrip
import PredicateLogic.Proofs.SpellableNames

namespace PredicateLogic

universe u

namespace Formula

/-!
### Reading a printed formula back
-/

variable {f : Formula}

/-- The text of a formula whose left operands may be chains is read as the formula grouped to the
right. -/
theorem WrittenWith.parses (written : f.WrittenWith looseGrip 0)
    (spellable : f.Everywhere namesSpellable) :
    ∃ g, parse f.text = .ok g ∧ g.SameAs f.regroup := by
  obtain ⟨tokens, scanned, same⟩ := f.scan_text (spellable_iff_everywhere.2 spellable)
  rw [← lexemes_regroup] at same
  obtain ⟨g, spelled, sameTree⟩ := written.regroup.spelled same
  exact ⟨g, parse_eq_ok_iff.2 ⟨tokens, scanned, Or.inr spelled⟩, sameTree⟩

/-- If no chain on the left is mixed, what is read back means the same. -/
theorem Uniform.equivalent_of_regroup {g : Formula} (uniform : f.Uniform)
    (same : g.SameAs f.regroup) : Equivalent.{u} g f :=
  same.equivalent.trans (regroup_equivalent uniform)

/-- A formula that was read, and is not empty, has the shape that its rewritings keep. -/
theorem loosely_of_parse {text : String} (parsed : parse text = .ok f)
    (nonempty : f.isEmpty = false) :
    f.WrittenWith looseGrip 0 ∧ f.Everywhere namesSpellable := by
  obtain ⟨shape, spellable⟩ := printable_of_parse parsed
  refine ⟨?_, spellable_iff_everywhere.1 spellable⟩
  rcases shape with ⟨span, rfl⟩ | written
  · cases nonempty
  · exact written.loosely

/-- What is printed for the rewritings of a formula that was read is read back as the rewritten
formulas grouped to the right. -/
theorem printed_rewritings_regroup {text : String} (parsed : parse text = .ok f)
    (nonempty : f.isEmpty = false) :
    (∃ g, parse f.implicationFree.text = .ok g ∧ g.SameAs f.implicationFree.regroup) ∧
      (∃ g, parse f.negationNormal.text = .ok g ∧ g.SameAs f.negationNormal.regroup) ∧
      ∃ g, parse f.negate.text = .ok g ∧ g.SameAs f.negate.regroup := by
  obtain ⟨written, spellable⟩ := loosely_of_parse parsed nonempty
  refine ⟨?_, ?_, ?_⟩
  · exact written.implicationFree.parses (spellable.implicationFree indifferent_namesSpellable)
  · exact (written.negationNormal rfl (Or.inr rfl)).parses
      (spellable.negationNormal indifferent_namesSpellable)
  · exact (written.negate rfl (Or.inr rfl)).parses (spellable.negate indifferent_namesSpellable)

/-- What is printed for the rewritings of a formula that was read can be read back.  If no chain on
the left of a conjunction or disjunction in the rewritten formula mixes connectives, it means what
was computed: the text of the formula without its implications, and that of its normal form, are
read as formulas with its meaning, and the text of its negation as one that is true exactly when it
is not.  None of the three rewritings mixes connectives if no premise of the formula has a
disjunction outside parentheses. -/
theorem printed_rewritings_equivalent {text : String} (parsed : parse text = .ok f)
    (nonempty : f.isEmpty = false) :
    (∃ g, parse f.implicationFree.text = .ok g ∧ (f.implicationFree.Uniform →
      ∀ (M : Structure.{u}) (ρ : Valuation M), g.Holds M ρ ↔ f.Holds M ρ)) ∧
    (∃ g, parse f.negationNormal.text = .ok g ∧ (f.negationNormal.Uniform →
      ∀ (M : Structure.{u}) (ρ : Valuation M), g.Holds M ρ ↔ f.Holds M ρ)) ∧
    (∃ g, parse f.negate.text = .ok g ∧ (f.negate.Uniform →
      ∀ (M : Structure.{u}) (ρ : Valuation M), g.Holds M ρ ↔ ¬ f.Holds M ρ)) ∧
    (f.Unmixed → f.implicationFree.Uniform ∧ f.negationNormal.Uniform ∧ f.negate.Uniform) := by
  obtain ⟨written, -⟩ := loosely_of_parse parsed nonempty
  obtain ⟨⟨g₁, read₁, same₁⟩, ⟨g₂, read₂, same₂⟩, g₃, read₃, same₃⟩ :=
    printed_rewritings_regroup parsed nonempty
  refine ⟨⟨g₁, read₁, ?_⟩, ⟨g₂, read₂, ?_⟩, ⟨g₃, read₃, ?_⟩, ?_⟩
  · intro uniform
    exact (uniform.equivalent_of_regroup same₁).trans (implicationFree_equivalent written.full)
  · intro uniform
    exact (uniform.equivalent_of_regroup same₂).trans (holds_negationNormal written.full)
  · intro uniform M ρ
    exact (uniform.equivalent_of_regroup same₃ M ρ).trans (holds_negate written.full M ρ)
  · intro unmixed
    exact ⟨(unmixed.implicationFree written).uniform, (unmixed.negationNormal written).uniform,
      (unmixed.negate written).uniform⟩

/-- The tree of `P & Q -> R`, or of `P | Q -> R`, read from the given position on. -/
def joinedPremise (c : Connective) (start : Nat) : Formula :=
  .binary .implication
    (.binary c (.predicate "P" [] (.between start (start + 1)))
      (.predicate "Q" [] (.between (start + 4) (start + 5))) (.between start (start + 5)))
    (.predicate "R" [] (.between (start + 9) (start + 10))) (.between start (start + 10))

/-- The tree of `!(P | Q -> R)`. -/
def negatedPremise : Formula :=
  .neg (.group (joinedPremise .disjunction 2) (.between 1 13)) (.between 0 13)

/-- With a conjunction in the premise what is printed means what was computed.  With a disjunction
that is so for the normal form where the implication is not negated, and for the negation where it
is. -/
theorem printed_rewritings_equivalent_premises :
    (parse "P & Q -> R" = .ok (joinedPremise .conjunction 0) ∧
      (joinedPremise .conjunction 0).isEmpty = false ∧ (joinedPremise .conjunction 0).Unmixed ∧
      (∃ g, parse "!P | !Q | R" = .ok g ∧ ∀ (M : Structure.{u}) (ρ : Valuation M),
        g.Holds M ρ ↔ (joinedPremise .conjunction 0).Holds M ρ) ∧
      ∃ g, parse "P & Q & !R" = .ok g ∧ ∀ (M : Structure.{u}) (ρ : Valuation M),
        g.Holds M ρ ↔ ¬ (joinedPremise .conjunction 0).Holds M ρ) ∧
    (parse "P | Q -> R" = .ok (joinedPremise .disjunction 0) ∧
      ¬ (joinedPremise .disjunction 0).Unmixed ∧
      (joinedPremise .disjunction 0).negationNormal.Uniform ∧
      ∃ g, parse (joinedPremise .disjunction 0).negationNormal.text = .ok g ∧
        ∀ (M : Structure.{u}) (ρ : Valuation M),
          g.Holds M ρ ↔ (joinedPremise .disjunction 0).Holds M ρ) ∧
    (parse "!(P | Q -> R)" = .ok negatedPremise ∧ ¬ negatedPremise.Unmixed ∧
      negatedPremise.negate.Uniform ∧
      ∃ g, parse "(P | Q -> R)" = .ok g ∧ ∀ (M : Structure.{u}) (ρ : Valuation M),
        g.Holds M ρ ↔ ¬ negatedPremise.Holds M ρ) := by
  refine ⟨?_, ?_, ?_⟩
  · have parsed : parse "P & Q -> R" = .ok (joinedPremise .conjunction 0) := by decide +kernel
    have unmixed : (joinedPremise .conjunction 0).Unmixed := by decide
    have printed : (joinedPremise .conjunction 0).implicationFree.text = "!P | !Q | R" ∧
        (joinedPremise .conjunction 0).negate.text = "P & Q & !R" := by
      decide +kernel
    obtain ⟨⟨g₁, read₁, same₁⟩, -, ⟨g₂, read₂, same₂⟩, uniform⟩ :=
      printed_rewritings_equivalent.{u} parsed rfl
    obtain ⟨uniform₁, -, uniform₂⟩ := uniform unmixed
    rw [printed.1] at read₁
    rw [printed.2] at read₂
    exact ⟨parsed, rfl, unmixed, ⟨g₁, read₁, same₁ uniform₁⟩, g₂, read₂, same₂ uniform₂⟩
  · have parsed : parse "P | Q -> R" = .ok (joinedPremise .disjunction 0) := by decide +kernel
    have uniform : (joinedPremise .disjunction 0).negationNormal.Uniform := by decide +kernel
    obtain ⟨-, ⟨g, read, same⟩, -⟩ := printed_rewritings_equivalent.{u} parsed rfl
    exact ⟨parsed, by decide, uniform, g, read, same uniform⟩
  · have parsed : parse "!(P | Q -> R)" = .ok negatedPremise := by decide +kernel
    have uniform : negatedPremise.negate.Uniform := by decide +kernel
    have printed : negatedPremise.negate.text = "(P | Q -> R)" := by decide +kernel
    obtain ⟨-, -, ⟨g, read, same⟩, -⟩ := printed_rewritings_equivalent.{u} parsed rfl
    rw [printed] at read
    exact ⟨parsed, by decide, uniform, g, read, same uniform⟩

/-- One element, of which every proposition but `Q` is true. -/
def withoutQ : Structure where
  Domain := Unit
  inhabited := ⟨()⟩
  function _ _ := ()
  predicate name _ := name ≠ "Q"
  truth _ := True

/-- With a disjunction in the premise, each of the rewritings can print something else than it
computed.  `P | Q -> R` becomes `!P & !Q | R` without its implication and `P | Q & !R` when it is
negated, and `!(P | Q -> R)` becomes `(P | Q & !R)` in normal form.  All of these are read with the
last two operands together, which tells them apart where `P` and `R` are true and `Q` is not. -/
theorem printed_rewritings_disjunction :
    parse "P | Q -> R" = .ok (joinedPremise .disjunction 0) ∧
      (∃ g, parse (joinedPremise .disjunction 0).implicationFree.text = .ok g ∧
        ¬ Equivalent.{0} g (joinedPremise .disjunction 0)) ∧
      (∃ g, parse (joinedPremise .disjunction 0).negate.text = .ok g ∧
        ¬ Equivalent.{0} g (.neg (joinedPremise .disjunction 0) .unknown)) ∧
      parse "!(P | Q -> R)" = .ok negatedPremise ∧
      ∃ g, parse negatedPremise.negationNormal.text = .ok g ∧
        ¬ Equivalent.{0} g negatedPremise := by
  have parsed : parse "P | Q -> R" = .ok (joinedPremise .disjunction 0) := by decide +kernel
  have parsedNegated : parse "!(P | Q -> R)" = .ok negatedPremise := by decide +kernel
  obtain ⟨⟨g₁, read₁, same₁⟩, -, g₂, read₂, same₂⟩ := printed_rewritings_regroup parsed rfl
  obtain ⟨-, ⟨g₃, read₃, same₃⟩, -⟩ := printed_rewritings_regroup parsedNegated rfl
  refine ⟨parsed, ⟨g₁, read₁, ?_⟩, ⟨g₂, read₂, ?_⟩, parsedNegated, g₃, read₃, ?_⟩
  · apply same₁.not_equivalent withoutQ fun _ => ()
    simp [joinedPremise, implicationFree, negate, regroup, attach, Holds,
      Connective.Join, withoutQ]
  · apply same₂.not_equivalent withoutQ fun _ => ()
    simp [joinedPremise, negate, regroup, attach, Holds, Connective.Join, withoutQ]
  · apply same₃.not_equivalent withoutQ fun _ => ()
    simp [negatedPremise, joinedPremise, negationNormal, runLength, core, isAtom,
      negate, regroup, attach, Holds, Connective.Join, withoutQ]

end Formula

end PredicateLogic
