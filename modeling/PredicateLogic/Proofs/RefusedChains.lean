/-
Module: PredicateLogic.Proofs.RefusedChains
Purpose: Which chains of operations fail for a formula.
  A chain can fail for two reasons, and both can be seen from the formula it starts with: a name has
  two roles and some operation has to know the role of each name, or the chain renames and there are
  more clashes than spare letters.  Operations other than renaming keep both as they are, and once a
  formula was renamed neither is left.  So it does not matter in which order a chain is applied.
Main exports: Formula.Conflicting, Operation.readsNames, Formula.Refuses,
  Formula.refuses_iff_of_transform, Operation.exists_report_iff, Operation.exists_reports_iff,
  Formula.refuses_perm
-/
import PredicateLogic.Proofs.FreshLetters
import PredicateLogic.Proofs.ReportedLines

namespace PredicateLogic

/-- The operation has to know what each name of a formula names. -/
def Operation.readsNames : Operation → Bool
  | .rename | .nameTable | .freeVariables => true
  | _ => false

namespace Formula

variable {f g : Formula} {operation : Operation} {operations : List Operation}

/-!
### Two reasons
-/

/-- Some name of the formula is a function symbol and a variable as well. -/
def Conflicting (f : Formula) : Prop :=
  ∃ entry ∈ f.identifiers, entry.2 = Role.function ∧ (entry.1, Role.var) ∈ f.identifiers

instance (f : Formula) : Decidable f.Conflicting :=
  inferInstanceAs (Decidable (∃ entry ∈ f.identifiers, _))

/-- The chain fails for the formula: some name has two roles although an operation of the chain has
to know the role of each, or the chain renames although more binders have to be renamed than there
are spare letters. -/
def Refuses (f : Formula) (operations : List Operation) : Prop :=
  (f.Conflicting ∧ ∃ operation ∈ operations, operation.readsNames = true) ∨
    (.rename ∈ operations ∧ f.spareLetters.length < f.clashCount)

instance (f : Formula) (operations : List Operation) : Decidable (f.Refuses operations) :=
  inferInstanceAs (Decidable ((_ ∧ ∃ operation ∈ operations, _) ∨ _))

theorem consistent_iff_not_conflicting : Consistent f.identifiers ↔ ¬ f.Conflicting := by
  rw [← not_iff_not, not_not, not_consistent_iff]
  constructor
  · rintro ⟨name, asVariable, asSymbol⟩
    exact ⟨(name, .function), asSymbol, rfl, asVariable⟩
  · rintro ⟨⟨name, role⟩, listed, rfl, twice⟩
    exact ⟨name, twice, listed⟩

/-- A formula has a name table unless some name has two roles. -/
theorem exists_nameTable_iff (f : Formula) :
    (∃ table, f.nameTable = .ok table) ↔ ¬ f.Conflicting := by
  rw [← consistent_iff_not_conflicting]
  constructor
  · rintro ⟨table, listed⟩
    exact (nameTable_eq_ok listed).1
  · exact exists_nameTable

theorem exists_freeVariables_iff (f : Formula) :
    (∃ names, f.freeVariables = .ok names) ↔ ¬ f.Conflicting := by
  rw [← consistent_iff_not_conflicting]
  constructor
  · rintro ⟨names, answer⟩
    exact (freeVariables_eq_ok answer).1
  · exact exists_freeVariables

/-- The order of a chain does not matter. -/
theorem refuses_perm {operations' : List Operation} (same : operations.Perm operations') :
    f.Refuses operations ↔ f.Refuses operations' := by
  simp only [Refuses, same.mem_iff]

/-- No chain fails for a formula in which no name has two roles and no binder clashes. -/
theorem not_refuses_of_separated (consistent : Consistent f.identifiers)
    (separated : f.Separated) : ¬ f.Refuses operations := by
  rintro (⟨conflicting, -⟩ | ⟨-, few⟩)
  · exact consistent_iff_not_conflicting.1 consistent conflicting
  · rw [separated.clashCount_eq_zero] at few
    exact Nat.not_lt_zero _ few

/-- Where a formula can be renamed, no chain fails. -/
theorem not_refuses_of_rename (renamed : f.rename = .ok g) : ¬ f.Refuses operations := by
  obtain ⟨consistent, enough⟩ := exists_rename_iff.1 ⟨g, renamed⟩
  rintro (⟨conflicting, -⟩ | ⟨-, few⟩)
  · exact consistent_iff_not_conflicting.1 consistent conflicting
  · omega

/-- The rest of a chain fails after an operation exactly if it would have failed before it. -/
theorem refuses_iff_of_transform (ran : operation.transform f = .ok g) :
    g.Refuses operations ↔ f.Refuses operations := by
  by_cases renames : operation = .rename
  · -- Renaming came through, so neither reason was there before it, and neither is left behind it.
    subst renames
    exact iff_of_false
      (not_refuses_of_separated (consistent_of_rename ran).2 (separated_of_rename ran))
      (not_refuses_of_rename ran)
  · have same := Operation.sameNames_of_transform renames ran
    have conflicts : g.Conflicting ↔ f.Conflicting := by
      rw [← not_iff_not, ← consistent_iff_not_conflicting, ← consistent_iff_not_conflicting,
        same.consistent_iff]
    simp only [Refuses, conflicts, same.spareLetters_eq, same.clashCount_eq]

end Formula

/-!
### Chains
-/

namespace Operation

variable {f : Formula}

theorem refuses_cons (operation : Operation) (rest : List Operation) :
    f.Refuses (operation :: rest) ↔ f.Refuses [operation] ∨ f.Refuses rest := by
  simp only [Formula.Refuses, List.mem_cons, List.not_mem_nil, or_false, exists_eq_or_imp,
    exists_eq_left]
  rw [and_or_left, or_and_right, or_or_or_comm]

theorem refuses_singleton {operation : Operation} :
    f.Refuses [operation] ↔ (f.Conflicting ∧ operation.readsNames = true) ∨
      (.rename = operation ∧ f.spareLetters.length < f.clashCount) := by
  simp [Formula.Refuses]

/-- One operation fails for exactly the two reasons. -/
theorem exists_report_iff (operation : Operation) (f : Formula) :
    (∃ g line, operation.report f = .ok (g, line)) ↔ ¬ f.Refuses [operation] := by
  rw [refuses_singleton]
  cases operation with
  | nameTable =>
      have answer := exists_map_iff f.nameTable fun table => (f, tableLine table)
      simpa [report, readsNames, answer] using f.exists_nameTable_iff
  | freeVariables =>
      have answer := exists_map_iff f.freeVariables fun names => (f, namesLine names)
      simpa [report, readsNames, answer] using f.exists_freeVariables_iff
  | rename =>
      have answer := exists_map_iff f.rename fun g => (g, g.text)
      have fits : (∃ g, f.rename = .ok g) ↔ _ := Formula.exists_rename_iff
      rw [Formula.consistent_iff_not_conflicting] at fits
      simpa [report, transform, readsNames, answer] using fits
  | print | negate | negationNormal | implicationFree | pullQuantifiers =>
      simp [report, transform, readsNames, Except.map]

/-- A chain fails for exactly the two reasons, wherever in it they come up. -/
theorem exists_reports_iff (f : Formula) (operations : List Operation) :
    (∃ lines, reports f operations = .ok lines) ↔ ¬ f.Refuses operations := by
  -- What is left of the chain is applied to the result of its first operation, so the induction is
  -- for every formula, and `refuses_iff_of_transform` leads back from the result.
  induction operations generalizing f with
  | nil => simp [reports, Formula.Refuses]
  | cons operation rest ih =>
      rw [refuses_cons, not_or, ← exists_report_iff]
      constructor
      · rintro ⟨lines, reported⟩
        obtain ⟨g, line, others, first, remaining, -⟩ := reports_cons_eq_ok.1 reported
        have later := (ih g).1 ⟨others, remaining⟩
        rw [Formula.refuses_iff_of_transform (report_eq_ok first).1] at later
        exact ⟨⟨g, line, first⟩, later⟩
      · rintro ⟨⟨g, line, first⟩, later⟩
        rw [← Formula.refuses_iff_of_transform (report_eq_ok first).1] at later
        obtain ⟨others, remaining⟩ := (ih g).2 later
        exact ⟨line :: others, reports_cons_eq_ok.2 ⟨g, line, others, first, remaining, rfl⟩⟩

end Operation

end PredicateLogic
