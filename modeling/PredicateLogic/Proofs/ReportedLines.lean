/-
Module: PredicateLogic.Proofs.ReportedLines
Purpose: A chain of operations is reported line by line.
  There is one line for each operation, and none of them holds a line break: the names in a formula
  whose names can be spelled are words, and so are those in its name table and in the answer to the
  question for free variables.  No operation brings in another kind of name.
Main exports: Text.OneLine, Formula.oneLine_text, Operation.report_eq_ok,
  Operation.reports_cons_eq_ok, Operation.reports_length, Operation.oneLine_of_reports
-/
import PredicateLogic.Proofs.OperationNames
import PredicateLogic.Proofs.RenamedShapes

namespace PredicateLogic

/-!
### Texts on one line
-/

namespace Text

/-- The text has no line break. -/
def OneLine (text : String) : Prop := '\n' ∉ text.toList

instance (text : String) : Decidable (OneLine text) := inferInstanceAs (Decidable (¬ _))

@[simp] theorem oneLine_append {text text' : String} :
    OneLine (text ++ text') ↔ OneLine text ∧ OneLine text' := by
  simp [OneLine]

theorem oneLine_commaSeparated {texts : List String} (each : ∀ text ∈ texts, OneLine text) :
    OneLine (commaSeparated texts) := by
  have comma : OneLine ", " := by decide
  unfold commaSeparated
  induction texts with
  | nil => decide
  | cons text rest ih =>
      obtain ⟨first, others⟩ := List.forall_mem_cons.1 each
      cases rest with
      | nil => exact first
      | cons next rest => simp [separated, first, comma, ih others]

theorem oneLine_commaSeparated_map {α : Type} {shown : α → String} {values : List α}
    (each : ∀ value ∈ values, OneLine (shown value)) :
    OneLine (commaSeparated (values.map shown)) :=
  oneLine_commaSeparated (List.forall_mem_map.2 each)

end Text

open Text

/-- A name that can be spelled is a word, and no letter is a line break. -/
theorem Lexeme.Spellable.oneLine {l : Lexeme} {name : String} (spellable : l.Spellable)
    (named : l.name? = some name) : OneLine name := by
  obtain ⟨first, others, rfl, letters, -⟩ := spellable.word named
  intro lineBreak
  rw [String.toList_ofList] at lineBreak
  exact absurd (letters '\n' lineBreak) (by decide)

/-!
### Terms and formulas
-/

namespace Term

variable {t : Term}

theorem oneLine_text (spellable : t.Spellable) : OneLine t.text := by
  induction t with
  | var v => exact (spellable_var.1 spellable).oneLine rfl
  | app name args span ih =>
      obtain ⟨named, each⟩ := spellable_app.1 spellable
      have word : OneLine name := named.oneLine rfl
      have inside : OneLine (commaSeparated (args.map text)) :=
        oneLine_commaSeparated_map fun u argument => ih u argument (each u argument)
      have signs : OneLine "(" ∧ OneLine ")" := by decide
      simp [text, word, inside, signs]

theorem oneLine_identifiers (spellable : t.Spellable) :
    ∀ entry ∈ t.identifiers, OneLine entry.1 := by
  induction t with
  | var v =>
      intro entry member
      rw [List.mem_singleton.1 member]
      exact (spellable_var.1 spellable).oneLine rfl
  | app name args span ih =>
      obtain ⟨named, each⟩ := spellable_app.1 spellable
      intro entry member
      rw [identifiers, identifiersList_eq_flatMap, List.mem_cons] at member
      rcases member with rfl | member
      · exact named.oneLine rfl
      · obtain ⟨u, argument, inside⟩ := List.mem_flatMap.1 member
        exact ih u argument (each u argument) entry inside

end Term

namespace Formula

variable {f g : Formula}

/-- The text of a formula whose names can be spelled is written on one line. -/
theorem oneLine_text (spelled : f.Everywhere namesSpellable) : OneLine f.text := by
  induction f with
  | empty span =>
      have nothing : OneLine "" := by decide
      exact nothing
  | term t => exact Term.oneLine_text spelled
  | literal value span =>
      have word : OneLine (literalText value) := by cases value <;> decide
      exact word
  | predicate name args span =>
      obtain ⟨named, each⟩ := spelled
      have word : OneLine name := named.oneLine rfl
      have inside : OneLine (commaSeparated (args.map Term.text)) :=
        oneLine_commaSeparated_map fun t argument => Term.oneLine_text (each t argument)
      have signs : OneLine "(" ∧ OneLine ")" := by decide
      cases args with
      | nil => exact word
      | cons t ts => simpa [text, word, signs] using inside
  | neg argument span ih =>
      have sign : OneLine Operator.negation.symbol := by decide
      simp [text, sign, ih spelled.2]
  | binary c left right span ihLeft ihRight =>
      have sign : OneLine c.symbol ∧ OneLine " " := by cases c <;> decide
      simp [text, sign, ihLeft spelled.2.1, ihRight spelled.2.2]
  | group body span ih =>
      have signs : OneLine "(" ∧ OneLine ")" := by decide
      simp [text, signs, ih spelled.2]
  | quantified q v body span ih =>
      have sign : OneLine q.symbol ∧ OneLine " " := by cases q <;> decide
      have word : OneLine v.name := Lexeme.Spellable.oneLine spelled.1 rfl
      simp [text, sign, word, ih spelled.2]

theorem oneLine_identifiers (spelled : f.Everywhere namesSpellable) :
    ∀ entry ∈ f.identifiers, OneLine entry.1 := by
  induction f with
  | term t => exact Term.oneLine_identifiers spelled
  | predicate name args span =>
      intro entry member
      obtain ⟨t, argument, inside⟩ := List.mem_flatMap.1 member
      exact Term.oneLine_identifiers (spelled.2 t argument) entry inside
  | neg argument span ih => exact ih spelled.2
  | binary c left right span ihLeft ihRight =>
      exact List.forall_mem_append.2 ⟨ihLeft spelled.2.1, ihRight spelled.2.2⟩
  | group body span ih => exact ih spelled.2
  | quantified q v body span ih =>
      exact List.forall_mem_cons.2 ⟨Lexeme.Spellable.oneLine spelled.1 rfl, ih spelled.2⟩
  | _ => simp [identifiers]

end Formula

/-!
### Reports
-/

namespace Operation

variable {operation : Operation} {operations : List Operation} {f g : Formula} {line : String}
  {lines : List String}

/-- What an operation reports: what it makes of the formula as a text, or its answer. -/
theorem report_eq_ok (reported : operation.report f = .ok (g, line)) :
    operation.transform f = .ok g ∧
      (line = g.text ∨ (∃ table, f.nameTable = .ok table ∧ line = tableLine table) ∨
        ∃ names, f.freeVariables = .ok names ∧ line = namesLine names) := by
  cases operation with
  | nameTable =>
      obtain ⟨table, listed, same⟩ := map_eq_ok_iff.1 reported
      cases same
      exact ⟨rfl, Or.inr (Or.inl ⟨table, listed, rfl⟩)⟩
  | freeVariables =>
      obtain ⟨names, answer, same⟩ := map_eq_ok_iff.1 reported
      cases same
      exact ⟨rfl, Or.inr (Or.inr ⟨names, answer, rfl⟩)⟩
  | rename =>
      obtain ⟨next, renamed, same⟩ := map_eq_ok_iff.1 reported
      cases same
      exact ⟨renamed, Or.inl rfl⟩
  | print | negate | negationNormal | implicationFree | pullQuantifiers =>
      cases reported
      exact ⟨rfl, Or.inl rfl⟩

/-- No operation brings in a name that cannot be spelled. -/
theorem spellable_of_transform (spelled : f.Everywhere Formula.namesSpellable)
    (ran : operation.transform f = .ok g) : g.Everywhere Formula.namesSpellable := by
  cases operation with
  | rename => exact Formula.spellable_rename spelled ran
  | negate =>
      cases ran
      exact Formula.Everywhere.negate Formula.indifferent_namesSpellable spelled
  | negationNormal =>
      cases ran
      exact Formula.Everywhere.negationNormal Formula.indifferent_namesSpellable spelled
  | implicationFree =>
      cases ran
      exact Formula.Everywhere.implicationFree Formula.indifferent_namesSpellable spelled
  | pullQuantifiers =>
      cases ran
      exact Formula.Everywhere.pullQuantifiers Formula.indifferent_namesSpellable spelled
  | print | nameTable | freeVariables =>
      cases ran
      exact spelled

/-- The report of an operation on a formula whose names can be spelled is written on one line. -/
theorem oneLine_of_report (spelled : f.Everywhere Formula.namesSpellable)
    (reported : operation.report f = .ok (g, line)) : OneLine line := by
  have words := Formula.oneLine_identifiers spelled
  obtain ⟨ran, rfl | ⟨table, listed, rfl⟩ | ⟨names, answer, rfl⟩⟩ := report_eq_ok reported
  · exact Formula.oneLine_text (spellable_of_transform spelled ran)
  · apply oneLine_commaSeparated_map
    intro entry inTable
    have word := words entry (((Formula.nameTable_eq_ok listed).2 entry).1 inTable)
    have label : OneLine ": " ∧ OneLine entry.2.label := by cases entry.2 <;> decide
    simp [word, label]
  · apply oneLine_commaSeparated
    intro name member
    have free := ((Formula.freeVariables_eq_ok answer).2 name).1 (mem_sortedNames.1 member)
    exact words (name, .var) (Formula.mem_identifiers_var.2 (Or.inl free))

/-!
### Chains
-/

/-- A chain has a report when its first operation has one, and the rest of the chain on what that
operation leaves. -/
theorem reports_cons_eq_ok :
    reports f (operation :: operations) = .ok lines ↔
      ∃ g line others, operation.report f = .ok (g, line) ∧ reports g operations = .ok others ∧
        lines = line :: others := by
  rw [reports, bind_eq_ok_iff]
  simp [bind_eq_ok_iff, pure, Except.pure, @eq_comm _ lines]

/-- There is one line for each operation. -/
theorem reports_length (reported : reports f operations = .ok lines) :
    lines.length = operations.length := by
  induction operations generalizing f lines with
  | nil =>
      cases reported
      rfl
  | cons operation rest ih =>
      obtain ⟨g, line, others, -, remaining, rfl⟩ := reports_cons_eq_ok.1 reported
      rw [List.length_cons, List.length_cons, ih remaining]

/-- No line of a report holds a line break. -/
theorem oneLine_of_reports (spelled : f.Everywhere Formula.namesSpellable)
    (reported : reports f operations = .ok lines) : ∀ line ∈ lines, OneLine line := by
  induction operations generalizing f lines with
  | nil =>
      cases reported
      simp
  | cons operation rest ih =>
      obtain ⟨g, line, others, first, remaining, rfl⟩ := reports_cons_eq_ok.1 reported
      have next := spellable_of_transform spelled (report_eq_ok first).1
      exact List.forall_mem_cons.2 ⟨oneLine_of_report spelled first, ih next remaining⟩

end Operation

end PredicateLogic
