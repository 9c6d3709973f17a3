/-
Module: PredicateLogic.Proofs.RunOutcomes
Purpose: What running a command comes to, worked out from what is asked for with no logger at hand.
  An outcome has all records of a run in one list, whatever their levels (`execute`).  It is made of
  the result of the run and of the records that came before its end (`execute_eq`).
Main exports: Outcome, namedOperations, execute, answerTo, outcomeOf, executeFormula_eq, execute_eq
-/
import PredicateLogic.CommandLine.Run

namespace PredicateLogic.CommandLine

open Log

/-!
### Outcomes

A run gives an exit code, lines of output and log records.  Lines are given only when everything
went well: the failure of one operation leaves none.
-/

/-- What a run comes to. -/
structure Outcome where
  exitCode : Nat
  lines : List String := []
  records : List Record
deriving Repr, DecidableEq

/-- The outcome of a run that fails, with the message that ends it. -/
def Outcome.failed (exitCode : Nat) (records : List Record) (message : String) : Outcome :=
  { exitCode := exitCode, records := records ++ [.ofLevel .error message] }

/-- How a run ends, without its records. -/
def Outcome.ending (outcome : Outcome) : Ending :=
  { exitCode := outcome.exitCode, lines := outcome.lines }

/-- The operations before the first that has no name. -/
def namedOperations : List (Option Operation) → List Operation
  | some operation :: rest => operation :: namedOperations rest
  | _ => []

/-- The outcome of a run on a formula, which comes after the given records. -/
def executeFormula (records : List Record) (operations : List (Option Operation)) (f : Formula) :
    Except Breakdown Outcome :=
  let named := namedOperations operations
  let records := records ++ (Operation.traces f named).map Event.record
  match Operation.reports f named with
  | .error error => .ok (.failed 3 records ("Rewrite error: " ++ error.message))
  | .ok lines =>
      if operations.contains none then .error .namelessOperation
      else .ok { exitCode := 0, lines := lines, records := records }

/-- The outcome of a run on what was handed in as the text of a formula. -/
def executeSource (operations : List (Option Operation)) (source : Source) :
    Except Breakdown Outcome :=
  let loaded : Record := .ofLevel .info ("Formula loaded: " ++ source.inserted)
  let reading := loaded :: (Trace.read source).map Event.record
  match source.parse with
  | .error error => .ok (.failed 2 reading ("Formula parsing error: " ++ error.message))
  | .ok f => executeFormula reading operations f

/-- The outcome of a run, where `read` gives the content of files. -/
def execute (read : Path → Except FileError String) (arguments : Arguments) :
    Except Breakdown Outcome :=
  match arguments.source with
  | .text text => executeSource arguments.chain (.text text)
  | .unnamedFile => executeSource arguments.chain .absent
  | .file name =>
      let path := Path.ofString name
      match read path >>= formulaText with
      | .error error => .ok (.failed 4 [] ("Formula file error: " ++ error.message path.text))
      | .ok text => executeSource arguments.chain (.text text)

/-!
### Results

The account of a run in two steps: what it results in, and what that result leads to.
-/

/-- The answer to operations on a formula: their lines, unless one is refused or has no name. -/
def answerTo (f : Formula) (operations : List (Option Operation)) :
    Except Failure (List String) :=
  match Operation.reports f (namedOperations operations) with
  | .error error => .error (.rewriting error)
  | .ok lines =>
      if operations.contains none then .error (.brokenOff .namelessOperation) else .ok lines

/-- Behind an operation that succeeds, the answer is that to the others with its line in front. -/
theorem answerTo_cons {operation : Operation} {rest : List (Option Operation)} {f next : Formula}
    {line : String} (reported : operation.report f = .ok (next, line)) :
    answerTo f (some operation :: rest) = (answerTo next rest).map (line :: ·) := by
  simp only [answerTo, namedOperations, Operation.reports, reported, bind, Except.bind]
  cases Operation.reports next (namedOperations rest) with
  | error e => rfl
  | ok lines =>
      by_cases nameless : none ∈ rest <;> simp [nameless, pure, Except.pure, Except.map]

theorem answerTo_cons_error {operation : Operation} {rest : List (Option Operation)} {f : Formula}
    {error : NamingError} (refused : operation.report f = .error error) :
    answerTo f (some operation :: rest) = .error (.rewriting error) := by
  simp [answerTo, namedOperations, Operation.reports, refused, bind, Except.bind]

/-- The outcome that a result leads to, behind the records that were given before the end. -/
def outcomeOf (records : List Record) : Except Failure (List String) → Except Breakdown Outcome
  | .ok lines => .ok { exitCode := 0, lines := lines, records := records }
  | .error (.reading error) =>
      .ok (.failed 2 records ("Formula parsing error: " ++ error.message))
  | .error (.rewriting error) => .ok (.failed 3 records ("Rewrite error: " ++ error.message))
  | .error (.file path error) =>
      .ok (.failed 4 records ("Formula file error: " ++ error.message path))
  | .error (.brokenOff breakdown) => .error breakdown

theorem executeFormula_eq (records : List Record) (operations : List (Option Operation))
    (f : Formula) :
    executeFormula records operations f =
      outcomeOf
        (records ++ (Operation.traces f (namedOperations operations)).map Event.record)
        (answerTo f operations) := by
  simp only [executeFormula, answerTo]
  cases Operation.reports f (namedOperations operations) with
  | error e => rfl
  | ok lines => by_cases nameless : none ∈ operations <;> simp [nameless, outcomeOf]

theorem execute_eq (read : Path → Except FileError String) (request : Arguments) :
    execute read request =
      match handedIn read request.source with
      | .error failure => outcomeOf [] (.error failure)
      | .ok source => executeSource request.chain source := by
  simp only [execute, handedIn]
  cases request.source with
  | text written => rfl
  | unnamedFile => rfl
  | file name =>
      cases content : read (Path.ofString name) >>= formulaText with
      | error e => simp only [content, outcomeOf]
      | ok text => simp only [content]

end PredicateLogic.CommandLine
