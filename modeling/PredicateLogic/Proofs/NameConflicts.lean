/-
Module: PredicateLogic.Proofs.NameConflicts
Purpose: Which name is reported when a formula uses names in two roles.
  A table is filled from left to right, and the first name that is met in another role than before
  is the one reported.  This is said by where the identifiers split (`FirstConflict`): those in
  front agree with each other, and one of them has the name in the other role.
Main exports: FirstConflict, NameTable.insert_eq_error, NameTable.insertAll_eq_error,
  Formula.nameTable_eq_error, exists_firstConflict_iff
-/
import PredicateLogic.Proofs.BoundNames

namespace PredicateLogic

/-!
### The first conflict
-/

/-- From left to right, the name is the first that is met in another role than before. -/
def FirstConflict (entries : List (String × Role)) (name : String) : Prop :=
  ∃ before role after other, entries = before ++ (name, role) :: after ∧ Consistent before ∧
    other ≠ role ∧ (name, other) ∈ before

namespace NameTable

variable {table : NameTable} {entries : List (String × Role)} {name : String} {role : Role}
  {error : NamingError}

/-- A name is refused by a table that holds it in another role. -/
theorem insert_eq_error (consistent : Consistent table) :
    table.insert name role = .error error ↔
      error = .conflict name ∧ ∃ other, other ≠ role ∧ (name, other) ∈ table := by
  constructor
  · intro refused
    unfold insert at refused
    split at refused
    case h_1 => cases refused
    case h_2 seen found =>
      split at refused
      case isTrue => cases refused
      case isFalse different =>
        cases refused
        obtain ⟨before, after, split, -⟩ := List.lookup_eq_some_iff.1 found
        exact ⟨rfl, seen, different, by simp [split]⟩
  · rintro ⟨rfl, other, different, member⟩
    cases inserted : table.insert name role with
    | ok next =>
        rcases insert_cases inserted with ⟨listed, -⟩ | ⟨unlisted, -⟩
        · exact absurd (consistent name other role member listed) different
        · exact absurd member (unlisted other)
    | error e =>
        unfold insert at inserted
        split at inserted
        · cases inserted
        · split at inserted <;> cases inserted
          rfl

/-- The names of a list are not all recorded when the first is refused, or one of the others after
it. -/
theorem insertAll_cons_eq_error {first : String × Role} {rest : List (String × Role)} :
    table.insertAll (first :: rest) = .error error ↔
      table.insert first.1 first.2 = .error error ∨
        ∃ next, table.insert first.1 first.2 = .ok next ∧ next.insertAll rest = .error error :=
  bind_eq_error_iff

/-- Entries behind a name that went into a table stand behind the same entries as before. -/
theorem mem_insert_append {next : NameTable} (inserted : table.insert name role = .ok next)
    (rest : List (String × Role)) (entry : String × Role) :
    entry ∈ next ++ rest ↔ entry ∈ table ++ (name, role) :: rest := by
  simp only [List.mem_append, List.mem_cons, mem_insert inserted, or_assoc]

/-- Recording names in a table in which no name has two roles fails at the first name that is met in
another role than before, in the table or in front of it in the list. -/
theorem insertAll_eq_error (consistent : Consistent table) :
    table.insertAll entries = .error error ↔
      ∃ name before role after other, error = .conflict name ∧
        entries = before ++ (name, role) :: after ∧ Consistent (table ++ before) ∧
        other ≠ role ∧ (name, other) ∈ table ++ before := by
  induction entries generalizing table with
  | nil => simp [insertAll]
  | cons first rest ih =>
      obtain ⟨written, kind⟩ := first
      rw [insertAll_cons_eq_error]
      constructor
      · rintro (refused | ⟨next, inserted, remaining⟩)
        · obtain ⟨rfl, other, different, member⟩ := (insert_eq_error consistent).1 refused
          exact ⟨written, [], kind, rest, other, rfl, rfl, by simpa using consistent, different,
            by simpa using member⟩
        · have kept := consistent_insert consistent inserted
          obtain ⟨name, before, role, after, other, rfl, rfl, agree, different, member⟩ :=
            (ih kept).1 remaining
          have same := mem_insert_append inserted before
          exact ⟨name, (written, kind) :: before, role, after, other, rfl, rfl,
            (consistent_congr same).1 agree, different, (same _).1 member⟩
      · rintro ⟨name, before, role, after, other, rfl, split, agree, different, member⟩
        cases before with
        | nil =>
            cases split
            have held : (written, other) ∈ table := by simpa using member
            exact Or.inl ((insert_eq_error consistent).2 ⟨rfl, other, different, held⟩)
        | cons entry before =>
            cases split
            -- The first entry agrees with the table, so it goes in, and the conflict is further on.
            obtain ⟨next, inserted⟩ : ∃ next, table.insert written kind = .ok next := by
              apply exists_insert
              intro r listed
              exact agree written r kind (by simp [listed]) (by simp)
            have same := mem_insert_append inserted before
            refine Or.inr ⟨next, inserted, (ih (consistent_insert consistent inserted)).2 ?_⟩
            exact ⟨name, before, role, after, other, rfl, rfl, (consistent_congr same).2 agree,
              different, (same _).2 member⟩

end NameTable

/-!
### Formulas
-/

/-- The name table of a formula fails to be made at the first conflict of its identifiers. -/
theorem Formula.nameTable_eq_error {f : Formula} {error : NamingError} :
    f.nameTable = .error error ↔
      ∃ name, error = .conflict name ∧ FirstConflict f.identifiers name := by
  have nothing : Consistent [] := by
    intro x r r' member
    cases member
  rw [nameTable, NameTable.insertAll_eq_error nothing]
  simp only [List.nil_append, FirstConflict, exists_and_left]

/-- There is a first conflict exactly where a name has two roles. -/
theorem exists_firstConflict_iff {f : Formula} :
    (∃ name, FirstConflict f.identifiers name) ↔ ¬ Consistent f.identifiers := by
  constructor
  · rintro ⟨name, conflict⟩ consistent
    obtain ⟨table, listed⟩ := Formula.exists_nameTable consistent
    have failed := Formula.nameTable_eq_error.2 ⟨name, rfl, conflict⟩
    cases listed.symm.trans failed
  · intro inconsistent
    cases listed : f.nameTable with
    | ok table => exact absurd (Formula.nameTable_eq_ok listed).1 inconsistent
    | error e =>
        obtain ⟨name, -, conflict⟩ := Formula.nameTable_eq_error.1 listed
        exact ⟨name, conflict⟩

end PredicateLogic
