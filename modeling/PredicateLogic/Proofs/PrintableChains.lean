/-
Module: PredicateLogic.Proofs.PrintableChains
Purpose: Chains of operations whose result is read back as it was printed.
  Operations on quantifiers keep a formula printable, whatever its connectives are.  Passing
  negations inward turns an implication into a conjunction, whose left operand would then need
  parentheses that it may not have; without implications it keeps a formula printable as well, and
  no operation brings in an implication.
Main exports: Operation.transformAll, Operation.transformAll_keeps, Formula.Printable.transform,
  Formula.WithoutImplication.transform, Formula.parse_text_transformAll
-/
import PredicateLogic.Operation
import PredicateLogic.Proofs.PulledShapes
import PredicateLogic.Proofs.RenamedShapes
import PredicateLogic.Proofs.RoundTrip

namespace PredicateLogic

/-!
### Chains
-/

namespace Operation

/-- The formula after a chain of operations, each applied to what the one before it left.  The first
that fails ends the chain. -/
def transformAll (f : Formula) (operations : List Operation) : Except NamingError Formula :=
  operations.foldlM (fun g operation => operation.transform g) f

/-- A chain keeps what each of its operations keeps. -/
theorem transformAll_keeps {Invariant : Formula → Prop} {operations : List Operation}
    (step : ∀ operation ∈ operations, ∀ f g, Invariant f → operation.transform f = .ok g →
      Invariant g) {f u : Formula} (start : Invariant f)
    (ran : transformAll f operations = .ok u) : Invariant u := by
  induction operations generalizing f with
  | nil =>
      cases ran
      exact start
  | cons operation rest ih =>
      obtain ⟨first, others⟩ := List.forall_mem_cons.1 step
      rw [transformAll, List.foldlM_cons] at ran
      cases next : operation.transform f with
      | error e =>
          rw [next] at ran
          cases ran
      | ok g =>
          rw [next] at ran
          exact ih others (first f g start next) ran

/-- The operations that rename and move quantifiers. -/
def onQuantifiers : List Operation := [.rename, .pullQuantifiers]

/-- The operations that pass negations inward. -/
def onNegations : List Operation := [.negate, .negationNormal]

end Operation

namespace Formula

variable {f g : Formula}

/-!
### One operation
-/

/-- What is kept for the empty formula and for the shape of what was read keeps a formula printable,
if it writes no name that cannot be spelled. -/
theorem Printable.step (printable : f.Printable) (empty : ∀ span, f = .empty span → g = .empty span)
    (shape : f.Written 0 → g.Written 0)
    (names : f.Everywhere namesSpellable → g.Everywhere namesSpellable) : g.Printable := by
  refine ⟨?_, spellable_iff_everywhere.2 (names (spellable_iff_everywhere.1 printable.spellable))⟩
  rcases printable.shape with ⟨span, isEmpty⟩ | written
  · exact Or.inl ⟨span, empty span isEmpty⟩
  · exact Or.inr (shape written)

theorem Printable.rename (printable : f.Printable) (renamed : f.rename = .ok g) :
    g.Printable := by
  refine printable.step ?_ (fun written => written.rename renamed)
    (fun spelled => spellable_rename spelled renamed)
  rintro span rfl
  obtain ⟨scope, after, -, walk⟩ := rename_eq_ok.1 renamed
  cases walk
  rfl

theorem Printable.pullQuantifiers (printable : f.Printable) : f.pullQuantifiers.Printable := by
  refine printable.step ?_ Written.pullQuantifiers
    (Everywhere.pullQuantifiers indifferent_namesSpellable)
  rintro span rfl
  rfl

theorem Printable.negate (printable : f.Printable) (without : f.WithoutImplication) :
    f.negate.Printable := by
  refine printable.step ?_ ?_ (Everywhere.negate indifferent_namesSpellable)
  · rintro span rfl
    rfl
  · intro written
    rw [← writtenWith_bindingPower] at written ⊢
    exact written.negate rfl (Or.inl without)

theorem Printable.negationNormal (printable : f.Printable) (without : f.WithoutImplication) :
    f.negationNormal.Printable := by
  refine printable.step ?_ ?_ (Everywhere.negationNormal indifferent_namesSpellable)
  · rintro span rfl
    simp [Formula.negationNormal]
  · intro written
    rw [← writtenWith_bindingPower] at written ⊢
    exact written.negationNormal rfl (Or.inl without)

/-- Operations on quantifiers keep a formula printable, and so do those on negations if it has no
implication. -/
theorem Printable.transform {operation : Operation} (printable : f.Printable)
    (allowed : operation ∈ Operation.onQuantifiers ∨
      f.WithoutImplication ∧ operation ∈ Operation.onNegations)
    (ran : operation.transform f = .ok g) : g.Printable := by
  cases operation with
  | rename => exact printable.rename ran
  | pullQuantifiers =>
      cases ran
      exact printable.pullQuantifiers
  | negate =>
      cases ran
      obtain ⟨without, -⟩ := allowed.resolve_left (by decide)
      exact printable.negate without
  | negationNormal =>
      cases ran
      obtain ⟨without, -⟩ := allowed.resolve_left (by decide)
      exact printable.negationNormal without
  | _ => exact absurd allowed (by simp [Operation.onQuantifiers, Operation.onNegations])

/-- No operation brings in an implication. -/
theorem WithoutImplication.transform {operation : Operation} (without : f.WithoutImplication)
    (ran : operation.transform f = .ok g) : g.WithoutImplication := by
  cases operation with
  | rename => exact without.rename ran
  | pullQuantifiers =>
      cases ran
      exact Everywhere.pullQuantifiers indifferent_isImplication without
  | negate =>
      cases ran
      exact without.negate
  | negationNormal =>
      cases ran
      exact Everywhere.negationNormal indifferent_isImplication without
  | implicationFree =>
      cases ran
      exact withoutImplication_implicationFree f
  | _ =>
      cases ran
      exact without

/-!
### Whole chains
-/

/-- Whatever text a formula was parsed from, and however often its quantifiers are renamed and
pulled to the left, the text of the result is read as the result again.  If the formula has no
implication, its negations may be passed inward in between. -/
theorem parse_text_transformAll {text : String} (parsed : parse text = .ok f) :
    (∀ operations u, operations ⊆ Operation.onQuantifiers →
      Operation.transformAll f operations = .ok u → ∃ g, parse u.text = .ok g ∧ g.SameAs u) ∧
    (f.WithoutImplication →
      ∀ operations u, operations ⊆ Operation.onQuantifiers ++ Operation.onNegations →
        Operation.transformAll f operations = .ok u → ∃ g, parse u.text = .ok g ∧ g.SameAs u) := by
  have printable := printable_of_parse parsed
  constructor
  · intro operations u allowed ran
    apply Printable.parses
    apply Operation.transformAll_keeps _ printable ran
    intro operation member g g' printable step
    exact printable.transform (Or.inl (allowed member)) step
  · intro without operations u allowed ran
    apply Printable.parses
    have kept : u.Printable ∧ u.WithoutImplication := by
      apply Operation.transformAll_keeps _ ⟨printable, without⟩ ran
      rintro operation member g g' ⟨printable, without⟩ step
      have choice := (List.mem_append.1 (allowed member)).imp_right fun onNegations =>
        And.intro without onNegations
      exact ⟨printable.transform choice step, without.transform step⟩
    exact kept.1

/-- The tree of `A.x P(x) & !E.x Q(x)`. -/
def clashingBinders : Formula :=
  .binary .conjunction
    (.quantified .universal { name := "x", span := .between 2 3 }
      (.predicate "P" [.var { name := "x", span := .between 6 7 }] (.between 4 8)) (.between 0 8))
    (.neg
      (.quantified .existential { name := "x", span := .between 14 15 }
        (.predicate "Q" [.var { name := "x", span := .between 18 19 }] (.between 16 20))
        (.between 12 20))
      (.between 11 20))
    (.between 0 20)

theorem parse_text_transformAll_clashingBinders :
    parse "A.x P(x) & !E.x Q(x)" = .ok clashingBinders ∧ clashingBinders.WithoutImplication ∧
      ∃ u, Operation.transformAll clashingBinders
          [.negationNormal, .rename, .pullQuantifiers, .negate] = .ok u ∧
        u.text = "E.x E.a !(P(x) & !Q(a))" ∧ ∃ g, parse u.text = .ok g ∧ g.SameAs u := by
  have parsed : parse "A.x P(x) & !E.x Q(x)" = .ok clashingBinders := by decide +kernel
  have without : clashingBinders.WithoutImplication := by decide
  have printed : (Operation.transformAll clashingBinders
      [.negationNormal, .rename, .pullQuantifiers, .negate]).map text =
        .ok "E.x E.a !(P(x) & !Q(a))" := by
    decide +kernel
  cases ran : Operation.transformAll clashingBinders
      [.negationNormal, .rename, .pullQuantifiers, .negate] with
  | error e =>
      rw [ran] at printed
      cases printed
  | ok u =>
      rw [ran] at printed
      exact ⟨parsed, without, u, rfl, Except.ok.inj printed,
        (parse_text_transformAll parsed).2 without _ u (by decide) ran⟩

end Formula

end PredicateLogic
