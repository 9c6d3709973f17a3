/-
Module: PredicateLogic.Proofs.OperationNames
Purpose: What the operations keep of the names in a formula.
  Every operation but renaming leaves a formula made of the names it was made of (`SameNames`), and
  renaming keeps the free names.  No operation gives a name a second role, so an answer on names
  that could be had before an operation can be had after it.
Main exports: Formula.SameNames, Operation.sameNames_of_transform,
  Operation.leavesFree_of_transform, Operation.consistent_of_transform,
  Formula.freeVariables_eq_ok, Formula.exists_freeVariables
-/
import PredicateLogic.Operation
import PredicateLogic.Proofs.SeparatedBinders

namespace PredicateLogic

namespace Formula

variable {f g : Formula}

/-!
### Formulas made of the same names
-/

/-- The second formula is made of the names of the first: it has the same identifiers and binds the
same names, each as often, and leaves the same names free. -/
structure SameNames (f g : Formula) : Prop where
  identifiers : g.identifiers.Perm f.identifiers
  bound : g.boundNames.Perm f.boundNames
  free : ∀ x, g.LeavesFree x ↔ f.LeavesFree x

/-- Formulas with the same value for whatever shows no sign are made of the same names. -/
theorem sameNames_of_unsigned
    (same : ∀ {α : Type} {value : Formula → α}, Unsigned value → value g = value f) :
    f.SameNames g := by
  refine ⟨?_, ?_, ?_⟩
  · rw [same collects_identifiers.unsigned]
  · rw [same collects_boundNames.unsigned]
  · intro x
    rw [same unsigned_leavesFree]

theorem sameNames_pullQuantifiers (f : Formula) : f.SameNames f.pullQuantifiers :=
  ⟨collects_identifiers.pullQuantifiers f, collects_boundNames.pullQuantifiers f,
    fun _ => leavesFree_pullQuantifiers⟩

/-- Identifiers among which no name has two roles still are so in another order. -/
theorem SameNames.consistent_iff (same : f.SameNames g) :
    Consistent g.identifiers ↔ Consistent f.identifiers :=
  consistent_congr fun _ => same.identifiers.mem_iff

/-!
### The answer to the question for free variables
-/

/-- The answer lists the free names of a formula in which no name has two roles. -/
theorem freeVariables_eq_ok {names : List String} (answer : f.freeVariables = .ok names) :
    Consistent f.identifiers ∧ ∀ x, x ∈ names ↔ f.LeavesFree x := by
  obtain ⟨table, listed, same⟩ := bind_eq_ok_iff.1 answer
  cases same
  exact ⟨(nameTable_eq_ok listed).1, fun x => mem_freeIn listed⟩

theorem exists_freeVariables (consistent : Consistent f.identifiers) :
    ∃ names, f.freeVariables = .ok names := by
  obtain ⟨table, listed⟩ := exists_nameTable consistent
  exact ⟨f.freeIn table, bind_eq_ok_iff.2 ⟨table, listed, rfl⟩⟩

/-- Formulas are renamed only if no name has two roles in them, and then none has two in the
result. -/
theorem consistent_of_rename (renamed : f.rename = .ok g) :
    Consistent f.identifiers ∧ Consistent g.identifiers := by
  obtain ⟨scope, after, start, walk⟩ := rename_eq_ok.1 renamed
  exact ⟨(Scope.ofFormula_eq_ok start).1,
    walk.consistent start (alphaEquivalent_of_rename renamed)⟩

end Formula

/-!
### One operation
-/

namespace Operation

variable {operation : Operation} {f g : Formula}

/-- An operation that pulls no quantifiers and gives no names keeps whatever shows no sign. -/
theorem unsigned_of_transform {α : Type} {value : Formula → α} (unsigned : Formula.Unsigned value)
    (stays : operation ≠ .pullQuantifiers) (other : operation ≠ .rename)
    (ran : operation.transform f = .ok g) : value g = value f := by
  cases operation with
  | pullQuantifiers => exact absurd rfl stays
  | rename => exact absurd rfl other
  | negate =>
      cases ran
      exact unsigned.negate f
  | negationNormal =>
      cases ran
      exact unsigned.negationNormal f
  | implicationFree =>
      cases ran
      exact unsigned.implicationFree f
  | print | nameTable | freeVariables =>
      cases ran
      rfl

/-- Operations other than renaming leave a formula made of its names. -/
theorem sameNames_of_transform (other : operation ≠ .rename)
    (ran : operation.transform f = .ok g) : f.SameNames g := by
  by_cases pulled : operation = .pullQuantifiers
  · subst pulled
    cases ran
    exact Formula.sameNames_pullQuantifiers f
  · exact Formula.sameNames_of_unsigned fun unsigned =>
      unsigned_of_transform unsigned pulled other ran

/-- No operation binds a name that was free, and none frees a name that was bound. -/
theorem leavesFree_of_transform (ran : operation.transform f = .ok g) (x : String) :
    f.LeavesFree x ↔ g.LeavesFree x := by
  by_cases renames : operation = .rename
  · subst renames
    exact (Formula.alphaEquivalent_of_rename ran).leavesFree_iff
  · exact ((sameNames_of_transform renames ran).free x).symm

/-- No operation gives a name a second role, or takes one away. -/
theorem consistent_of_transform (ran : operation.transform f = .ok g) :
    Consistent f.identifiers ↔ Consistent g.identifiers := by
  by_cases renames : operation = .rename
  · subst renames
    obtain ⟨before, after⟩ := Formula.consistent_of_rename ran
    exact iff_of_true before after
  · exact (sameNames_of_transform renames ran).consistent_iff.symm

end Operation

end PredicateLogic
