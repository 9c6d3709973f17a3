/-
Module: PredicateLogic.Proofs.BoundNames
Purpose: The names that the quantifiers of a formula bind, and how they make up its variables.
  A variable of a formula is a name that it leaves free or a name that one of its quantifiers binds
  (`mem_identifiers_var`), and none of them changes with the marks (`identifiers_mark`).  The name
  table of a formula exists exactly when no name is both a variable and a function symbol, and then
  lists what the formula contains (`nameTable_eq_ok`, `exists_nameTable`).
Main exports: Formula.boundNames, Formula.mem_identifiers_var, Formula.identifiers_mark, Consistent,
  not_consistent_iff, Formula.nameTable_eq_ok, Formula.exists_nameTable, Formula.mem_freeIn,
  Formula.mem_domain
-/
import PredicateLogic.Proofs.FallibleSteps
import PredicateLogic.Proofs.FreeNames

namespace PredicateLogic

/-!
### Bound names
-/

/-- The names that the quantifiers of a formula bind, from left to right, an outer one before those
in its body. -/
def Formula.boundNames : Formula → List String
  | .empty _ => []
  | .term _ => []
  | .literal _ _ => []
  | .predicate _ _ _ => []
  | .neg argument _ => argument.boundNames
  | .binary _ left right _ => left.boundNames ++ right.boundNames
  | .group body _ => body.boundNames
  | .quantified _ bound body _ => bound.name :: body.boundNames

/-- The variables of a term are the names of its occurrences. -/
theorem Term.mem_identifiers_var {t : Term} {name : String} :
    (name, Role.var) ∈ t.identifiers ↔ ∃ v ∈ t.occurrences, v.name = name := by
  induction t with
  | var v => simp [identifiers, occurrences, eq_comm]
  | app f args span ih =>
      simp only [identifiers, occurrences, identifiersList_eq_flatMap, occurrencesList_eq_flatMap,
        List.mem_cons, List.mem_flatMap, Prod.mk.injEq, reduceCtorEq, and_false, false_or]
      constructor
      · rintro ⟨t, member, listed⟩
        obtain ⟨v, occurs, named⟩ := (ih t member).1 listed
        exact ⟨v, ⟨t, member, occurs⟩, named⟩
      · rintro ⟨v, ⟨t, member, occurs⟩, named⟩
        exact ⟨t, member, (ih t member).2 ⟨v, occurs, named⟩⟩

/-- The variables of terms are the names of their occurrences. -/
theorem Term.mem_flatMap_identifiers_var {ts : List Term} {name : String} :
    (name, Role.var) ∈ ts.flatMap Term.identifiers ↔
      ∃ v ∈ ts.flatMap Term.occurrences, v.name = name := by
  simp only [List.mem_flatMap, Term.mem_identifiers_var]
  constructor
  · rintro ⟨t, member, v, occurs, named⟩
    exact ⟨v, ⟨t, member, occurs⟩, named⟩
  · rintro ⟨v, ⟨t, member, occurs⟩, named⟩
    exact ⟨t, member, v, occurs, named⟩

/-- The variables of a formula are the names it leaves free and the names it binds. -/
theorem Formula.mem_identifiers_var {f : Formula} {name : String} :
    (name, Role.var) ∈ f.identifiers ↔ f.LeavesFree name ∨ name ∈ f.boundNames := by
  induction f with
  | empty span => simp [identifiers, boundNames]
  | term t => simp [identifiers, boundNames, Term.mem_identifiers_var]
  | literal value span => simp [identifiers, boundNames]
  | predicate p args span => simp [identifiers, boundNames, Term.mem_identifiers_var]
  | neg argument span ih => simpa [identifiers, boundNames] using ih
  | binary c left right span ihLeft ihRight =>
      simp only [identifiers, boundNames, List.mem_append, leavesFree_binary, ihLeft, ihRight]
      exact or_or_or_comm
  | group body span ih => simpa [identifiers, boundNames] using ih
  | quantified q v body span ih =>
      simp only [identifiers, boundNames, List.mem_cons, leavesFree_quantified, ih, Prod.mk.injEq,
        and_true]
      by_cases own : name = v.name
      · simp [own]
      · simp [own]

/-!
### Marks
-/

/-- Marking the occurrences in a term changes none of its names. -/
theorem Term.identifiers_mark (bound : List String) (t : Term) :
    (t.mapOccurrences (Variable.mark bound)).identifiers = t.identifiers := by
  induction t with
  | var v => rfl
  | app name args span ih =>
      simp only [mapOccurrences, identifiers, mapOccurrencesList_eq_map,
        identifiersList_eq_flatMap, List.flatMap_map]
      rw [List.flatMap_def, List.flatMap_def, List.map_congr_left ih]

/-- Marking free occurrences changes no name of a formula. -/
theorem Formula.identifiers_mark (f : Formula) (bound : List String) :
    (f.mark bound).identifiers = f.identifiers := by
  induction f generalizing bound with
  | term t => exact t.identifiers_mark bound
  | predicate name args span =>
      simp only [mark_predicate, identifiers, List.flatMap_map, Term.identifiers_mark]
  | neg argument span ih => exact ih bound
  | binary c left right span ihLeft ihRight => simp only [mark_binary, identifiers, ihLeft, ihRight]
  | group body span ih => exact ih bound
  | quantified q v body span ih => simp only [mark_quantified, identifiers, ih]
  | _ => rfl

/-!
### Name tables
-/

/-- Whether no name is seen in two roles. -/
def Consistent (entries : List (String × Role)) : Prop :=
  ∀ name r r', (name, r) ∈ entries → (name, r') ∈ entries → r = r'

/-- Which names have two roles does not depend on the order of the entries. -/
theorem consistent_congr {entries entries' : List (String × Role)}
    (same : ∀ entry, entry ∈ entries ↔ entry ∈ entries') :
    Consistent entries ↔ Consistent entries' := by
  simp only [Consistent, same]

/-- A name with two roles is a variable and a function symbol. -/
theorem not_consistent_iff {entries : List (String × Role)} :
    ¬ Consistent entries ↔ ∃ name, (name, .var) ∈ entries ∧ (name, .function) ∈ entries := by
  constructor
  · intro inconsistent
    by_contra separate
    apply inconsistent
    intro name r r' first second
    cases r <;> cases r'
    · rfl
    · exact absurd ⟨name, first, second⟩ separate
    · exact absurd ⟨name, second, first⟩ separate
    · rfl
  · rintro ⟨name, asVariable, asSymbol⟩ consistent
    cases consistent name _ _ asVariable asSymbol

namespace NameTable

/-- A name goes into a table either because it is there in the same role, or because it is not
there at all. -/
theorem insert_cases {table next : NameTable} {name : String} {role : Role}
    (inserted : table.insert name role = .ok next) :
    ((name, role) ∈ table ∧ next = table) ∨
      ((∀ r, (name, r) ∉ table) ∧ next = table ++ [(name, role)]) := by
  unfold insert at inserted
  split at inserted
  case h_1 absent =>
    cases inserted
    refine Or.inr ⟨?_, rfl⟩
    intro r member
    simpa using List.lookup_eq_none_iff.1 absent (name, r) member
  case h_2 seen found =>
    split at inserted
    case isTrue same =>
      cases inserted
      obtain ⟨before, after, split, -⟩ := List.lookup_eq_some_iff.1 found
      exact Or.inl ⟨by simp [split, same], rfl⟩
    case isFalse => cases inserted

/-- A name goes into a table that does not hold it in another role. -/
theorem exists_insert {table : NameTable} {name : String} {role : Role}
    (agree : ∀ r, (name, r) ∈ table → r = role) : ∃ next, table.insert name role = .ok next := by
  unfold insert
  split
  case h_1 => exact ⟨_, rfl⟩
  case h_2 seen found =>
    obtain ⟨before, after, split, -⟩ := List.lookup_eq_some_iff.1 found
    have same : seen = role := agree seen (by simp [split])
    rw [if_pos same]
    exact ⟨_, rfl⟩

/-- After a name went in, a table holds it beside what it held before. -/
theorem mem_insert {table next : NameTable} {name : String} {role : Role}
    (inserted : table.insert name role = .ok next) (entry : String × Role) :
    entry ∈ next ↔ entry ∈ table ∨ entry = (name, role) := by
  rcases insert_cases inserted with ⟨listed, rfl⟩ | ⟨-, rfl⟩
  · constructor
    · exact Or.inl
    · rintro (member | rfl)
      · exact member
      · exact listed
  · simp

/-- After a name went in, a table that held no name in two roles still holds none. -/
theorem consistent_insert {table next : NameTable} {name : String} {role : Role}
    (consistent : Consistent table) (inserted : table.insert name role = .ok next) :
    Consistent next := by
  rcases insert_cases inserted with ⟨-, rfl⟩ | ⟨unlisted, rfl⟩
  · exact consistent
  · intro x r r' first second
    simp only [List.mem_append, List.mem_singleton, Prod.mk.injEq] at first second
    rcases first with first | ⟨rfl, rfl⟩ <;> rcases second with second | ⟨same, rfl⟩
    · exact consistent x r r' first second
    · subst same
      exact absurd first (unlisted r)
    · exact absurd second (unlisted r')
    · rfl

/-- Names are recorded one after the other. -/
theorem insertAll_cons {table result : NameTable} {first : String × Role}
    {rest : List (String × Role)} :
    table.insertAll (first :: rest) = .ok result ↔
      ∃ next, table.insert first.1 first.2 = .ok next ∧ next.insertAll rest = .ok result :=
  bind_eq_ok_iff

/-- A table in which names were recorded holds these names beside what it held before, and none in
two roles if it held none so before. -/
theorem insertAll_eq_ok {entries : List (String × Role)} {table result : NameTable}
    (recorded : table.insertAll entries = .ok result) (consistent : Consistent table) :
    Consistent result ∧ ∀ entry, entry ∈ result ↔ entry ∈ table ∨ entry ∈ entries := by
  induction entries generalizing table with
  | nil =>
      cases recorded
      exact ⟨consistent, by simp⟩
  | cons first rest ih =>
      obtain ⟨next, inserted, remaining⟩ := insertAll_cons.1 recorded
      obtain ⟨kept, members⟩ := ih remaining (consistent_insert consistent inserted)
      refine ⟨kept, ?_⟩
      intro entry
      rw [members entry, mem_insert inserted entry, List.mem_cons, or_assoc]

/-- Names that agree with a table and with each other can be recorded in it. -/
theorem exists_insertAll {entries : List (String × Role)} {table : NameTable}
    (consistent : Consistent (table ++ entries)) :
    ∃ result, table.insertAll entries = .ok result := by
  induction entries generalizing table with
  | nil => exact ⟨table, rfl⟩
  | cons first rest ih =>
      obtain ⟨next, inserted⟩ : ∃ next, table.insert first.1 first.2 = .ok next := by
        apply exists_insert
        intro r member
        exact consistent first.1 r first.2 (by simp [member]) (by simp)
      have remaining : Consistent (next ++ rest) := by
        have known : ∀ entry, entry ∈ next ++ rest → entry ∈ table ++ first :: rest := by
          intro entry member
          rw [List.mem_append, mem_insert inserted] at member
          simpa [or_assoc] using member
        intro x r r' one two
        exact consistent x r r' (known _ one) (known _ two)
      obtain ⟨result, recorded⟩ := ih remaining
      exact ⟨result, insertAll_cons.2 ⟨next, inserted, recorded⟩⟩

end NameTable

namespace Formula

/-- The name table of a formula lists the identifiers of the formula, none in two roles. -/
theorem nameTable_eq_ok {f : Formula} {table : NameTable} (listed : f.nameTable = .ok table) :
    Consistent f.identifiers ∧ ∀ entry, entry ∈ table ↔ entry ∈ f.identifiers := by
  obtain ⟨consistent, members⟩ := NameTable.insertAll_eq_ok listed (by intro x r r' h; cases h)
  have same : ∀ entry, entry ∈ table ↔ entry ∈ f.identifiers := by simpa using members
  refine ⟨?_, same⟩
  intro x r r' first second
  exact consistent x r r' ((same _).2 first) ((same _).2 second)

/-- A formula in which no name has two roles has a name table. -/
theorem exists_nameTable {f : Formula} (consistent : Consistent f.identifiers) :
    ∃ table, f.nameTable = .ok table :=
  NameTable.exists_insertAll (by simpa using consistent)

/-- The names of a formula's table that occur free are all its free names. -/
theorem mem_freeIn {f : Formula} {table : NameTable} (listed : f.nameTable = .ok table)
    {name : String} : name ∈ f.freeIn table ↔ f.LeavesFree name := by
  have individual : name ∈ table.individuals ↔ (name, Role.var) ∈ f.identifiers := by
    rw [← (nameTable_eq_ok listed).2]
    simp [NameTable.individuals]
  simp only [freeIn, List.mem_filter, individual, mem_identifiers_var]
  constructor
  · rintro ⟨-, free⟩
    exact free
  · intro free
    exact ⟨Or.inl free, free⟩

/-- The names of a formula's table are its variables and its function symbols. -/
theorem mem_domain {f : Formula} {table : NameTable} (listed : f.nameTable = .ok table)
    {name : String} : name ∈ table.domain ↔ ∃ role, (name, role) ∈ f.identifiers := by
  have listedRole : name ∈ table.domain ↔ ∃ role, (name, role) ∈ table := by
    simp [NameTable.domain]
  simp only [listedRole, (nameTable_eq_ok listed).2]

end Formula

end PredicateLogic
