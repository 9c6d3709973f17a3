/-
Module: PredicateLogic.Proofs.KeptAtoms
Purpose: Nothing is lost, doubled or put elsewhere by the operations that rewrite a formula.
  Negations, connectives, parentheses and quantifiers may come and go, but the atoms stay what they
  are, in their order, and so do the bound variables.  Only pulled quantifiers trade places, and
  only with what stands beside them, so that the atoms keep their order even then
  (`atoms_pullQuantifiers`), and what is listed of names is the same up to order
  (`exists_nameTable_perm`).
Main exports: Formula.atoms, Formula.unsigned_atoms, Formula.atoms_pullQuantifiers,
  Formula.nodup_nameTable, Formula.exists_nameTable_perm, Operation.transform_keeps_atoms
-/
import Mathlib.Data.List.Nodup
import PredicateLogic.Proofs.Mentions
import PredicateLogic.Proofs.NameConflicts
import PredicateLogic.Proofs.OperationNames

namespace PredicateLogic

namespace Formula

variable {f g : Formula} {c : Connective}

/-!
### Atoms
-/

/-- The atoms of a formula from left to right, each with all that is written in it. -/
def atoms : Formula → List Formula
  | .empty _ => []
  | .neg argument _ => argument.atoms
  | .binary _ left right _ => left.atoms ++ right.atoms
  | .group body _ => body.atoms
  | .quantified _ _ body _ => body.atoms
  | atom => [atom]

/-- No sign shows in the atoms. -/
theorem unsigned_atoms : Unsigned atoms where
  neg _ _ := rfl
  group _ same := same
  binary c c' f f' g g' span sameLeft sameRight := by
    rw [atoms, atoms, sameLeft, sameRight]
  quantified _ _ _ _ _ _ same := same

/-- The binders in front of a formula hold no atom. -/
theorem atoms_matrix (f : Formula) : f.matrix.atoms = f.atoms := by
  induction f with
  | quantified q v body span ih => exact ih
  | _ => rfl

theorem atoms_bindAll (bs : List Binder) (f : Formula) : (bindAll bs f).atoms = f.atoms := by
  induction bs with
  | nil => rfl
  | cons b bs ih => exact ih

/-- Only binders move when two operands are joined, so the atoms of the left operand stay in front
of those of the right one. -/
theorem atoms_joinBound (c : Connective) (keepLeft keepRight : Bool) (left right : Formula) :
    (joinBound c keepLeft keepRight left right).atoms = left.atoms ++ right.atoms := by
  calc (joinBound c keepLeft keepRight left right).atoms
      = (left.leftBody keepLeft).atoms ++ (right.rightBody keepRight).atoms := by
        rw [joinBound_eq, atoms_bindAll, atoms, atoms]
    _ = left.matrix.atoms ++ right.matrix.atoms := by
        rw [apply_leftBody atoms (fun _ _ => rfl), apply_rightBody atoms (fun _ _ => rfl)]
    _ = left.atoms ++ right.atoms := by rw [atoms_matrix, atoms_matrix]

theorem atoms_pullQuantifiers (f : Formula) : f.pullQuantifiers.atoms = f.atoms := by
  induction f with
  | neg argument span ih => exact ih
  | binary c left right span ihLeft ihRight =>
      simp only [pullQuantifiers]
      split
      case isTrue => rw [atoms_joinBound, ihLeft, ihRight, atoms]
      case isFalse => rw [atoms, ihLeft, ihRight, atoms]
  | group body span ih =>
      simp only [pullQuantifiers]
      split
      case isTrue => exact ih
      case isFalse => exact ih
  | quantified q v body span ih => exact ih
  | _ => rfl

/-- The bound variables are collected node by node. -/
theorem collects_binders : Collects id binders :=
  ⟨fun _ _ => binders_neg, fun _ _ => binders_group, fun _ _ _ _ => binders_binary,
    fun _ _ _ _ => binders_quantified⟩

end Formula

/-!
### Tables of the same names
-/

namespace NameTable

/-- A name that is recorded twice is listed once. -/
theorem nodup_domain_insert {table next : NameTable} {name : String} {role : Role}
    (inserted : table.insert name role = .ok next) (distinct : table.domain.Nodup) :
    next.domain.Nodup := by
  rcases insert_cases inserted with ⟨-, rfl⟩ | ⟨unlisted, rfl⟩
  · exact distinct
  · have unknown : name ∉ table.domain := by simpa [domain] using unlisted
    have entries : domain (table ++ [(name, role)]) = table.domain ++ [name] := List.map_append
    rw [entries]
    exact List.nodup_append_comm.2 (List.nodup_cons.2 ⟨unknown, distinct⟩)

theorem nodup_domain_insertAll {entries : List (String × Role)} {table result : NameTable}
    (recorded : table.insertAll entries = .ok result) (distinct : table.domain.Nodup) :
    result.domain.Nodup := by
  induction entries generalizing table with
  | nil =>
      cases recorded
      exact distinct
  | cons first rest ih =>
      obtain ⟨next, inserted, remaining⟩ := insertAll_cons.1 recorded
      exact ih remaining (nodup_domain_insert inserted distinct)

end NameTable

namespace Formula

variable {f g : Formula}

/-- The name table of a formula lists no name twice. -/
theorem nodup_nameTable {table : NameTable} (listed : f.nameTable = .ok table) : table.Nodup := by
  have distinct : table.domain.Nodup := NameTable.nodup_domain_insertAll listed List.nodup_nil
  exact List.Nodup.of_map _ distinct

/-- Formulas with the same identifiers in another order have the same table up to order. -/
theorem exists_nameTable_perm (same : g.identifiers.Perm f.identifiers) {table : NameTable}
    (listed : f.nameTable = .ok table) :
    ∃ table', g.nameTable = .ok table' ∧ table'.Perm table := by
  obtain ⟨consistent, entries⟩ := nameTable_eq_ok listed
  obtain ⟨table', listed'⟩ :=
    exists_nameTable ((consistent_congr fun _ => same.mem_iff).2 consistent)
  refine ⟨table', listed', ?_⟩
  rw [List.perm_ext_iff_of_nodup (nodup_nameTable listed') (nodup_nameTable listed)]
  intro entry
  rw [(nameTable_eq_ok listed').2, entries, same.mem_iff]

/-- Formulas with the same identifiers in another order both have a conflict, or none has. -/
theorem exists_conflict (same : g.identifiers.Perm f.identifiers) {error : NamingError}
    (refused : f.nameTable = .error error) :
    ∃ name, g.nameTable = .error (.conflict name) := by
  cases found : g.nameTable with
  | ok table' =>
      obtain ⟨table, listed, -⟩ := exists_nameTable_perm same.symm found
      cases refused.symm.trans listed
  | error error' =>
      obtain ⟨name, rfl, -⟩ := nameTable_eq_error.1 found
      exact ⟨name, rfl⟩

end Formula

/-!
### The rewriting operations
-/

namespace Operation

/-- The operations that move negations and quantifiers or spell out implications keep the atoms of a
formula, each in its place among the others, and its bound variables.  The name table stays the
same, or the same conflict stands in its way; only where quantifiers are pulled may the entries
trade places, and another conflict be the first. -/
theorem transform_keeps_atoms {operation : Operation} (f : Formula)
    (rewrites : operation ∈ [.negate, .negationNormal, .implicationFree, .pullQuantifiers]) :
    ∃ g, operation.transform f = .ok g ∧ g.atoms = f.atoms ∧ g.binders.Perm f.binders ∧
      (operation ≠ .pullQuantifiers → g.nameTable = f.nameTable) ∧
      (∀ table, f.nameTable = .ok table →
        ∃ table', g.nameTable = .ok table' ∧ table'.Perm table) ∧
      ∀ error, f.nameTable = .error error → ∃ name, g.nameTable = .error (.conflict name) := by
  have renames : operation ≠ .rename := by
    rintro rfl
    simp at rewrites
  obtain ⟨g, ran⟩ : ∃ g, operation.transform f = .ok g := by
    cases operation with
    | rename => exact absurd rfl renames
    | _ => exact ⟨_, rfl⟩
  have names : g.identifiers.Perm f.identifiers := (sameNames_of_transform renames ran).identifiers
  have tables : (∀ table, f.nameTable = .ok table →
        ∃ table', g.nameTable = .ok table' ∧ table'.Perm table) ∧
      ∀ error, f.nameTable = .error error → ∃ name, g.nameTable = .error (.conflict name) :=
    ⟨fun _ => Formula.exists_nameTable_perm names, fun _ => Formula.exists_conflict names⟩
  by_cases pulled : operation = .pullQuantifiers
  · subst pulled
    cases ran
    exact ⟨_, rfl, f.atoms_pullQuantifiers, Formula.collects_binders.pullQuantifiers f,
      fun other => absurd rfl other, tables⟩
  · have atoms : g.atoms = f.atoms :=
      unsigned_of_transform Formula.unsigned_atoms pulled renames ran
    have binders : g.binders = f.binders :=
      unsigned_of_transform Formula.collects_binders.unsigned pulled renames ran
    have identifiers : g.identifiers = f.identifiers :=
      unsigned_of_transform Formula.collects_identifiers.unsigned pulled renames ran
    have table : g.nameTable = f.nameTable := by
      rw [Formula.nameTable, identifiers, Formula.nameTable]
    exact ⟨g, ran, atoms, binders ▸ List.Perm.refl _, fun _ => table, tables⟩

/-- The formulas `P(g(x)) & A.y Q(y)` and their like with another connective and bound name. -/
def besideQuantifier (c : Connective) (name : String) : Formula :=
  .binary c (.predicate "P" [.app "g" [.var { name := "x" }] .unknown] .unknown)
    (.quantified .universal { name := name } (.predicate "Q" [.var { name := name }] .unknown)
      .unknown) .unknown

/-- An implication is spelled out with its table unchanged.  A quantifier that is pulled over a
conjunction brings its variable to the front of the table, and a conflict stays one. -/
theorem transform_keeps_atoms_besideQuantifier :
    (∃ g, implicationFree.transform (besideQuantifier .implication "y") = .ok g ∧
      g.nameTable = (besideQuantifier .implication "y").nameTable) ∧
    (∃ g table', pullQuantifiers.transform (besideQuantifier .conjunction "y") = .ok g ∧
      g.atoms = (besideQuantifier .conjunction "y").atoms ∧
      g.binders.Perm (besideQuantifier .conjunction "y").binders ∧
      g.nameTable = .ok table' ∧
      table'.Perm [("g", .function), ("x", .var), ("y", .var)]) ∧
    ∃ g name, pullQuantifiers.transform (besideQuantifier .conjunction "g") = .ok g ∧
      g.nameTable = .error (.conflict name) := by
  have pulls : pullQuantifiers ∈
      [.negate, .negationNormal, .implicationFree, .pullQuantifiers] := by
    decide
  refine ⟨?spelled, ?pulled, ?refused⟩
  case spelled =>
    have rewrites : implicationFree ∈
        [.negate, .negationNormal, .implicationFree, .pullQuantifiers] := by
      decide
    obtain ⟨g, ran, -, -, table, -⟩ :=
      transform_keeps_atoms (besideQuantifier .implication "y") rewrites
    exact ⟨g, ran, table Operation.noConfusion⟩
  case pulled =>
    have listed : (besideQuantifier .conjunction "y").nameTable =
        .ok [("g", .function), ("x", .var), ("y", .var)] := by
      decide +kernel
    obtain ⟨g, ran, atoms, binders, -, tables, -⟩ :=
      transform_keeps_atoms (besideQuantifier .conjunction "y") pulls
    obtain ⟨table', listed', same⟩ := tables _ listed
    exact ⟨g, table', ran, atoms, binders, listed', same⟩
  case refused =>
    have conflict : (besideQuantifier .conjunction "g").nameTable = .error (.conflict "g") := by
      decide +kernel
    obtain ⟨g, ran, -, -, -, -, refused⟩ :=
      transform_keeps_atoms (besideQuantifier .conjunction "g") pulls
    obtain ⟨name, refused'⟩ := refused _ conflict
    exact ⟨g, name, ran, refused'⟩

end Operation

end PredicateLogic
