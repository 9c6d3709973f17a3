/-
Module: PredicateLogic.Proofs.ExitCodes
Purpose: What a command comes to, read off its request before anything is run.
  A run fails for its file, for its text or for the names in its formula, in this order, and it
  writes its lines only if it does not fail.  Of the operations only those count that are asked for,
  not their order (`Arguments.exitCode`).  An operation that is asked for without a name is the one
  thing that may break a run off before it has an exit code.
Main exports: FormulaSource.source?, Arguments.exitCode, Arguments.exitCode_perm,
  execute_exitCode, respond_exitCode, respond_eq_broken_iff, respond_namelessOperation
-/
import Mathlib.Data.List.TakeWhile
import PredicateLogic.Proofs.LoggedRuns
import PredicateLogic.Proofs.RefusedChains
import PredicateLogic.Proofs.RoundTrip

namespace PredicateLogic

/-!
### Blank files
-/

namespace Text

/-- Line breaks written otherwise are white space as before. -/
theorem forall_isBlank_unifyLineBreaks {text : List Char} :
    (∀ c ∈ unifyLineBreaks text, isBlank c = true) ↔ ∀ c ∈ text, isBlank c = true := by
  have breaks : isBlank '\r' = true ∧ isBlank '\n' = true := by decide
  fun_induction unifyLineBreaks text with
  | case1 => exact Iff.rfl
  | case2 rest ih => simp [breaks, ih]
  | case3 rest _ ih => simp [breaks, ih]
  | case4 c rest _ _ ih => simp [ih]

/-- Nothing is left between white space at both ends exactly if there is nothing but white space. -/
theorem isEmpty_strip {text : String} :
    (strip text).isEmpty = true ↔ ∀ c ∈ text.toList, isBlank c = true := by
  have front : (∀ c ∈ text.toList.dropWhile isBlank, isBlank c = true) ↔
      ∀ c ∈ text.toList, isBlank c = true := by
    constructor
    · intro rest c member
      rw [← List.takeWhile_append_dropWhile (p := isBlank) (l := text.toList)] at member
      rcases List.mem_append.1 member with before | behind
      · exact List.mem_takeWhile_imp before
      · exact rest c behind
    · intro all c member
      exact all c (List.dropWhile_subset _ member)
  rw [strip, String.isEmpty_iff, String.ofList_eq_empty_iff, List.reverse_eq_nil_iff,
    List.dropWhile_eq_nil_iff, ← front]
  simp only [List.mem_reverse]

end Text

/-- Whatever a formula is read from, its names can be spelled. -/
theorem Source.spellable_of_parse {source : Source} {f : Formula}
    (parsed : source.parse = .ok f) : f.Everywhere Formula.namesSpellable := by
  unfold parse at parsed
  split at parsed
  case h_1 text =>
    cases read : Formula.parse text with
    | error e => simp [read, Except.mapError] at parsed
    | ok g =>
        rw [read] at parsed
        cases parsed
        exact Formula.spellable_iff_everywhere.1 (Formula.printable_of_parse read).spellable
  all_goals
    cases parsed
    try exact (trivial : (Formula.empty _).Everywhere Formula.namesSpellable)

namespace CommandLine

open Log

variable {read : Path → Except FileError String} {request : Arguments}

/-!
### What a request asks for
-/

/-- What a formula is read from: nothing if its file cannot be read or holds nothing but white
space.  Where a file is asked for without a name, no text is handed in. -/
def FormulaSource.source? (read : Path → Except FileError String) : FormulaSource → Option Source
  | .text written => some (.text written)
  | .unnamedFile => some .absent
  | .file name =>
      match read (Path.ofString name) with
      | .error _ => none
      | .ok content =>
          if content.toList.all Text.isBlank then none
          else some (.text (Text.strip (Text.unifyNewlines content)))

/-- The exit code that a request leads to: 4 without anything to read a formula from, 2 if that is
no formula, 3 if the formula refuses the operations, and 0 otherwise. -/
def Arguments.exitCode (read : Path → Except FileError String) (request : Arguments) : Nat :=
  match request.source.source? read with
  | none => 4
  | some source =>
      match source.parse with
      | .error _ => 2
      | .ok f => if f.Refuses (request.operations.filterMap id) then 3 else 0

/-- The order of the operations makes no difference. -/
theorem Arguments.exitCode_perm {request' : Arguments} (source : request'.source = request.source)
    (same : request'.operations.Perm request.operations) :
    request'.exitCode read = request.exitCode read := by
  have chains : ∀ f : Formula, f.Refuses (request'.operations.filterMap id) ↔
      f.Refuses (request.operations.filterMap id) :=
    fun f => Formula.refuses_perm (same.filterMap id)
  simp only [exitCode, source, chains]

/-!
### Runs
-/

/-- Where all operations have names, all of them are before the first without one. -/
theorem namedOperations_eq_filterMap {operations : List (Option Operation)}
    (named : none ∉ operations) : namedOperations operations = operations.filterMap id := by
  induction operations with
  | nil => rfl
  | cons first rest ih =>
      cases first with
      | none => exact absurd List.mem_cons_self named
      | some operation =>
          have others := ih fun member => named (List.mem_cons_of_mem _ member)
          simp [namedOperations, others]

theorem length_filterMap_id {operations : List (Option Operation)} (named : none ∉ operations) :
    (operations.filterMap id).length = operations.length := by
  rw [List.filterMap_length_eq_length]
  intro operation member
  cases operation with
  | none => exact absurd member named
  | some operation => rfl

/-- The operations to apply are those asked for, or printing if none is. -/
theorem chain_cases (request : Arguments) :
    (request.operations = [] ∧ request.chain = [some .print]) ∨
      (request.operations ≠ [] ∧ request.chain = request.operations) := by
  unfold Arguments.chain
  split
  case isTrue nothing => exact Or.inl ⟨List.isEmpty_iff.1 nothing, rfl⟩
  case isFalse something => exact Or.inr ⟨mt List.isEmpty_iff.2 something, rfl⟩

/-- Printing is refused by no formula. -/
theorem refuses_chain (request : Arguments) (f : Formula) :
    f.Refuses (request.chain.filterMap id) ↔ f.Refuses (request.operations.filterMap id) := by
  rcases chain_cases request with ⟨nothing, printed⟩ | ⟨-, same⟩
  · simp [nothing, printed, Formula.Refuses, Operation.readsNames]
  · rw [same]

theorem length_chain (request : Arguments) :
    request.chain.length = max 1 request.operations.length := by
  rcases chain_cases request with ⟨nothing, printed⟩ | ⟨something, same⟩
  · simp [nothing, printed]
  · have positive := List.length_pos_iff.2 something
    rw [same]
    omega

theorem none_mem_chain : none ∈ request.chain ↔ none ∈ request.operations := by
  rcases chain_cases request with ⟨nothing, printed⟩ | ⟨-, same⟩
  · simp [nothing, printed]
  · rw [same]

/-- The content of a file gives a text unless it is blank. -/
theorem formulaText_eq (content : String) :
    formulaText content =
      if content.toList.all Text.isBlank then .error .blank
      else .ok (Text.strip (Text.unifyNewlines content)) := by
  have blank : (Text.strip (Text.unifyNewlines content)).isEmpty =
      content.toList.all Text.isBlank := by
    rw [Bool.eq_iff_iff, Text.isEmpty_strip, Text.unifyNewlines, String.toList_ofList,
      Text.forall_isBlank_unifyLineBreaks, List.all_eq_true]
  simp only [formulaText, blank]

theorem source?_file (name : String) :
    FormulaSource.source? read (.file name) =
      (read (Path.ofString name) >>= formulaText).toOption.map Source.text := by
  cases content : read (Path.ofString name) with
  | error e => simp [FormulaSource.source?, content, bind, Except.bind, Except.toOption]
  | ok content' =>
      simp only [FormulaSource.source?, content, bind, Except.bind, formulaText_eq]
      split <;> rfl

/-- Without anything to read a formula from a run ends with code 4 and writes nothing. -/
theorem execute_of_source_none (missing : request.source.source? read = none) :
    ∃ message, execute read request = .ok (.failed 4 [] message) := by
  unfold execute
  cases origin : request.source with
  | text written => simp [origin, FormulaSource.source?] at missing
  | unnamedFile => simp [origin, FormulaSource.source?] at missing
  | file name =>
      rw [origin, source?_file] at missing
      cases content : read (Path.ofString name) >>= formulaText with
      | error e => exact ⟨_, by simp only [content]; rfl⟩
      | ok text => simp [content, Except.toOption] at missing

/-- Otherwise it is a run on what the formula is read from. -/
theorem execute_of_source_some {source : Source}
    (found : request.source.source? read = some source) :
    execute read request = executeSource request.chain source := by
  unfold execute
  cases origin : request.source with
  | text written =>
      rw [origin] at found
      cases found
      rfl
  | unnamedFile =>
      rw [origin] at found
      cases found
      rfl
  | file name =>
      rw [origin, source?_file] at found
      cases content : read (Path.ofString name) >>= formulaText with
      | error e => simp [content, Except.toOption] at found
      | ok text =>
          rw [content] at found
          cases found
          simp only [content]

/-- What a run of named operations on a formula comes to: the formula refuses the operations and
nothing is written, or there is a line for each operation. -/
theorem executeFormula_eq_ok (records : List Record) {operations : List (Option Operation)}
    (named : none ∉ operations) (f : Formula) :
    ∃ outcome, executeFormula records operations f = .ok outcome ∧
      ((f.Refuses (operations.filterMap id) ∧ outcome.exitCode = 3 ∧ outcome.lines = []) ∨
        (¬ f.Refuses (operations.filterMap id) ∧ outcome.exitCode = 0 ∧
          Operation.reports f (operations.filterMap id) = .ok outcome.lines)) := by
  have all : operations.contains none = false := by simpa using named
  have decides := Operation.exists_reports_iff f (operations.filterMap id)
  simp only [executeFormula, namedOperations_eq_filterMap named, all]
  cases reported : Operation.reports f (operations.filterMap id) with
  | error e =>
      rw [reported] at decides
      refine ⟨_, rfl, Or.inl ⟨?_, rfl, rfl⟩⟩
      simpa using decides
  | ok lines =>
      rw [reported] at decides
      refine ⟨_, rfl, Or.inr ⟨?_, rfl, rfl⟩⟩
      simpa using decides

/-- A run of named operations ends with the exit code that is read off its request.  It writes one
line for each operation if it does not fail, and none if it does. -/
theorem execute_exitCode (read : Path → Except FileError String)
    (named : none ∉ request.operations) :
    ∃ outcome, execute read request = .ok outcome ∧ outcome.exitCode = request.exitCode read ∧
      (outcome.exitCode = 0 → outcome.lines.length = max 1 request.operations.length ∧
        ∀ line ∈ outcome.lines, Text.OneLine line) ∧
      (outcome.exitCode ≠ 0 → outcome.lines = []) := by
  cases found : request.source.source? read with
  | none =>
      obtain ⟨message, failed⟩ := execute_of_source_none found
      have code : request.exitCode read = 4 := by simp only [Arguments.exitCode, found]
      exact ⟨_, failed, code.symm, by simp [Outcome.failed], fun _ => rfl⟩
  | some source =>
      rw [execute_of_source_some found]
      unfold executeSource
      cases parsed : source.parse with
      | error e =>
          have code : request.exitCode read = 2 := by simp only [Arguments.exitCode, found, parsed]
          exact ⟨_, rfl, code.symm, by simp [Outcome.failed], fun _ => rfl⟩
      | ok f =>
          have namedChain : none ∉ request.chain := mt none_mem_chain.1 named
          obtain ⟨outcome, ran, ⟨refused, three, nothing⟩ | ⟨accepted, zero, reported⟩⟩ :=
            executeFormula_eq_ok (Record.ofLevel .info ("Formula loaded: " ++ source.inserted) ::
              (Trace.read source).map Event.record) namedChain f
          · rw [refuses_chain] at refused
            have code : request.exitCode read = 3 := by
              simp only [Arguments.exitCode, found, parsed, if_pos refused]
            exact ⟨outcome, ran, three.trans code.symm, by simp [three], fun _ => nothing⟩
          · rw [refuses_chain] at accepted
            have code : request.exitCode read = 0 := by
              simp only [Arguments.exitCode, found, parsed, if_neg accepted]
            have count := Operation.reports_length reported
            rw [length_filterMap_id namedChain, length_chain] at count
            have lines := Operation.oneLine_of_reports (Source.spellable_of_parse parsed) reported
            exact ⟨outcome, ran, zero.trans code.symm, fun _ => ⟨count, lines⟩,
              fun failed => absurd zero failed⟩

/-!
### Responses
-/

/-- What is seen of a command in which all operations have names. -/
theorem respond_eq_ran (read : Path → Except FileError String) {arguments : List String}
    (understood : Arguments.parse arguments = .ok request) (named : none ∉ request.operations) :
    ∃ lines log, respond read arguments = .ran (request.exitCode read) (outputText lines) log ∧
      (request.exitCode read = 0 → lines.length = max 1 request.operations.length ∧
        ∀ line ∈ lines, Text.OneLine line) ∧
      (request.exitCode read ≠ 0 → lines = []) := by
  obtain ⟨outcome, ran, code, success, failure⟩ := execute_exitCode read named
  rw [code] at success failure
  let threshold := Level.threshold request.verbose request.debug
  refine ⟨outcome.lines, threshold.write outcome.records, ?_, success, failure⟩
  rw [respond_eq]
  simp only [understood, ran, code, threshold]

/-- A command in which all operations have names ends with the exit code that is read off its
request, and so does a command with the same operations in another order.  With code 0 it writes
exactly one line for each operation, or one if none is asked for, and with any other code
nothing. -/
theorem respond_exitCode (read : Path → Except FileError String) {arguments : List String}
    (understood : Arguments.parse arguments = .ok request) (named : none ∉ request.operations) :
    ∃ output log, respond read arguments = .ran (request.exitCode read) output log ∧
      (request.exitCode read = 0 → ∃ lines, output = outputText lines ∧
        lines.length = max 1 request.operations.length ∧ ∀ line ∈ lines, Text.OneLine line) ∧
      (request.exitCode read ≠ 0 → output = "") ∧
      ∀ arguments' request', Arguments.parse arguments' = .ok request' →
        request'.source = request.source → request'.operations.Perm request.operations →
          ∃ output' log', respond read arguments' = .ran (request.exitCode read) output' log' := by
  obtain ⟨lines, log, seen, success, failure⟩ := respond_eq_ran read understood named
  refine ⟨outputText lines, log, seen, ?_, ?_, ?_⟩
  · intro zero
    exact ⟨lines, rfl, success zero⟩
  · intro failed
    rw [failure failed]
    rfl
  · intro arguments' request' understood' source same
    have named' : none ∉ request'.operations := fun member => named (same.mem_iff.1 member)
    obtain ⟨lines', log', seen', -, -⟩ := respond_eq_ran read understood' named'
    rw [Arguments.exitCode_perm source same] at seen'
    exact ⟨_, log', seen'⟩

/-- The request to rename `A.x P(x) & A.x Q(x)` and then to list its free variables. -/
def renamedThenAsked : Arguments :=
  { source := .text "A.x P(x) & A.x Q(x)", operations := [some .rename, some .freeVariables] }

theorem respond_exitCode_renamedThenAsked :
    Arguments.parse ["A.x P(x) & A.x Q(x)", "--op", "rename", "--op", "free"] =
        .ok renamedThenAsked ∧
      none ∉ renamedThenAsked.operations ∧
      renamedThenAsked.exitCode (Directory.ofFiles []).read = 0 ∧
      ∃ output log, respond (Directory.ofFiles []).read
          ["A.x P(x) & A.x Q(x)", "--op", "rename", "--op", "free"] = .ran 0 output log ∧
        (∃ lines, output = outputText lines ∧ lines.length = 2 ∧
          ∀ line ∈ lines, Text.OneLine line) ∧
        ∃ output' log', respond (Directory.ofFiles []).read
          ["--op", "free", "A.x P(x) & A.x Q(x)", "--op", "rename"] = .ran 0 output' log' := by
  have understood : Arguments.parse ["A.x P(x) & A.x Q(x)", "--op", "rename", "--op", "free"] =
      .ok renamedThenAsked := by
    decide +kernel
  have understood' : Arguments.parse ["--op", "free", "A.x P(x) & A.x Q(x)", "--op", "rename"] =
      .ok { renamedThenAsked with operations := [some .freeVariables, some .rename] } := by
    decide +kernel
  have named : none ∉ renamedThenAsked.operations := by decide
  have zero : renamedThenAsked.exitCode (Directory.ofFiles []).read = 0 := by decide +kernel
  obtain ⟨output, log, seen, success, -, ordered⟩ :=
    respond_exitCode (Directory.ofFiles []).read understood named
  have again := ordered _ _ understood' rfl (List.Perm.swap _ _ _)
  rw [zero] at seen again
  exact ⟨understood, named, zero, output, log, seen, success zero, again⟩

/-!
### Runs that break off
-/

theorem executeFormula_eq_error_iff {records : List Record} {operations : List (Option Operation)}
    {f : Formula} :
    executeFormula records operations f = .error .namelessOperation ↔
      none ∈ operations ∧ ¬ f.Refuses (namedOperations operations) := by
  rw [← Operation.exists_reports_iff]
  simp only [executeFormula]
  cases reported : Operation.reports f (namedOperations operations) with
  | error e => simp
  | ok lines =>
      by_cases nameless : none ∈ operations
      · simp [nameless]
      · simp [nameless]

theorem executeSource_eq_error_iff {operations : List (Option Operation)} {source : Source} :
    executeSource operations source = .error .namelessOperation ↔
      ∃ f, source.parse = .ok f ∧ none ∈ operations ∧ ¬ f.Refuses (namedOperations operations) := by
  unfold executeSource
  cases parsed : source.parse with
  | error e => simp
  | ok f => simp [executeFormula_eq_error_iff]

theorem execute_eq_error_iff (read : Path → Except FileError String) (request : Arguments) :
    execute read request = .error .namelessOperation ↔
      ∃ source f, request.source.source? read = some source ∧ source.parse = .ok f ∧
        none ∈ request.operations ∧ ¬ f.Refuses (namedOperations request.operations) := by
  cases found : request.source.source? read with
  | none =>
      obtain ⟨message, failed⟩ := execute_of_source_none found
      simp [failed]
  | some source =>
      rw [execute_of_source_some found, executeSource_eq_error_iff, none_mem_chain]
      -- The chain is another list only where no operation is asked for, and then none lacks a name.
      have same : none ∈ request.operations → request.chain = request.operations := by
        intro nameless
        rcases chain_cases request with ⟨nothing, -⟩ | ⟨-, same⟩
        · simp [nothing] at nameless
        · exact same
      constructor
      · rintro ⟨f, parsed, nameless, accepted⟩
        rw [same nameless] at accepted
        exact ⟨source, f, rfl, parsed, nameless, accepted⟩
      · rintro ⟨_, f, ⟨⟩, parsed, nameless, accepted⟩
        rw [← same nameless] at accepted
        exact ⟨f, parsed, nameless, accepted⟩

/-- A command breaks off exactly when an operation without a name is reached: its request is
understood, there is a formula, and the formula does not refuse the operations before that one. -/
theorem respond_eq_broken_iff {arguments : List String} :
    respond read arguments = .broken .namelessOperation ↔
      ∃ request source f, Arguments.parse arguments = .ok request ∧
        request.source.source? read = some source ∧ source.parse = .ok f ∧
        none ∈ request.operations ∧ ¬ f.Refuses (namedOperations request.operations) := by
  rw [respond_eq]
  cases understood : Arguments.parse arguments with
  | error stop => simp
  | ok request =>
      have breaks := execute_eq_error_iff read request
      cases ran : execute read request with
      | error breakdown =>
          cases breakdown
          simpa [ran] using breaks
      | ok outcome => simpa [ran] using breaks

/-- With an operation that is asked for without a name a command may break off without an exit code,
and whether it does depends on the order of the operations: a name with two roles ends the command
with code 3 if the name table is asked for before. -/
theorem respond_namelessOperation :
    respond (Directory.ofFiles []).read ["f(x) | g(f)", "--op=--", "--op", "names"] =
        .broken .namelessOperation ∧
      respond (Directory.ofFiles []).read ["f(x) | g(f)", "--op", "names", "--op=--"] =
        .ran 3 "" "Rewrite error: Found conflict between variable and function name ('f').\n" := by
  decide +kernel

end CommandLine

end PredicateLogic
