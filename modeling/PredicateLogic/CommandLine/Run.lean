/-
Module: PredicateLogic.CommandLine.Run
Purpose: Running a command with a logger at hand, and what is seen of it.
Main exports:
  Breakdown, Failure, performAll, attempt, Ending, carryOut, run, Session, session, Response,
  respond
-/
import PredicateLogic.CommandLine.Arguments
import PredicateLogic.CommandLine.Directory
import PredicateLogic.Log.Telling
import PredicateLogic.Text.Blank
import PredicateLogic.Text.Newline

namespace PredicateLogic.CommandLine

open Log

/-!
### Failures

A failure is told and ends the run with an exit code of its own.  A run that breaks off has none.
-/

/-- Why a run breaks off without an outcome. -/
inductive Breakdown where
  | namelessOperation
deriving Repr, DecidableEq

/-- The wording of a breakdown. -/
def Breakdown.message : Breakdown → String
  | .namelessOperation => "unhashable type: 'list'"

/-- Why a run fails. -/
inductive Failure where
  /-- The file at a path holds no text of a formula. -/
  | file (path : String) (error : FileError)
  /-- What was handed in is no formula. -/
  | reading (error : SourceError)
  /-- An operation was refused. -/
  | rewriting (error : NamingError)
  /-- The run breaks off. -/
  | brokenOff (breakdown : Breakdown)
deriving Repr, DecidableEq

/-!
### Operations

The operations are carried out in order, each on what the one before it left.  One that was asked
for without a name breaks the run off when its turn comes, so nothing is seen of a run that gets
there.
-/

/-- The operations to apply: printing when none is asked for. -/
def Arguments.chain (arguments : Arguments) : List (Option Operation) :=
  if arguments.operations.isEmpty then [some .print] else arguments.operations

/-- Carries out the change that an operation makes. -/
def perform (operation : Operation) (f : Formula) : LoggedExcept NamingError Formula :=
  match operation with
  | .negate => Telling.negate f
  | .negationNormal => Telling.negationNormal f
  | .implicationFree => Telling.implicationFree f
  | .pullQuantifiers => Telling.pullQuantifiers f
  | .rename => Telling.rename f
  | _ => return f

/-- Carries out an operation and gives the line that reports it. -/
def performReported (operation : Operation) (f : Formula) :
    LoggedExcept NamingError (Formula × String) :=
  match operation with
  | .nameTable => do
      let table ← f.nameTable
      return (f, Operation.tableLine table)
  | .freeVariables => do
      let names ← Telling.freeVariables f
      return (f, Operation.namesLine names)
  | operation => do
      let next ← perform operation f
      return (next, next.text)

/-- Carries out operations and gives the lines that report them.  At one without a name the run
breaks off. -/
def performAll (f : Formula) : List (Option Operation) → LoggedExcept Failure (List String)
  | [] => return []
  | none :: _ => throw (.brokenOff .namelessOperation)
  | some operation :: rest => do
      let (next, line) ← (performReported operation f).adapt .rewriting
      let lines ← performAll next rest
      return line :: lines

/-!
### Runs

The logger is set up by the flags, and the rest of a run does not look at them.  A failure is told
at the level of errors, and with it the run comes to its end.
-/

/-- The formula text that the content of a file holds. -/
def formulaText (content : String) : Except FileError String :=
  let text := Text.strip (Text.unifyNewlines content)
  if text.isEmpty then .error .blank else .ok text

/-- What the formula of a run is read from. -/
def handedIn (read : Path → Except FileError String) : FormulaSource → Except Failure Source
  | .text text => .ok (.text text)
  | .unnamedFile => .ok .absent
  | .file name =>
      let path := Path.ofString name
      match read path >>= formulaText with
      | .error error => .error (.file path.text error)
      | .ok text => .ok (.text text)

/-- Reads a formula and carries out operations on it. -/
def attempt (read : Path → Except FileError String) (origin : FormulaSource)
    (operations : List (Option Operation)) : LoggedExcept Failure (List String) := do
  let source ← handedIn read origin
  note (.ofLevel .info ("Formula loaded: " ++ source.inserted))
  let f ← (Telling.read source).adapt .reading
  performAll f operations

/-- How a run ends. -/
structure Ending where
  exitCode : Nat
  lines : List String := []
deriving Repr, DecidableEq

/-- Ends a run with an exit code and a message. -/
def endWith (exitCode : Nat) (message : String) : Logged (Except Breakdown Ending) := do
  note (.ofLevel .error message)
  return .ok { exitCode := exitCode }

/-- Ends a run. -/
def conclude : Except Failure (List String) → Logged (Except Breakdown Ending)
  | .ok lines => return .ok { exitCode := 0, lines := lines }
  | .error (.reading error) => endWith 2 ("Formula parsing error: " ++ error.message)
  | .error (.rewriting error) => endWith 3 ("Rewrite error: " ++ error.message)
  | .error (.file path error) => endWith 4 ("Formula file error: " ++ error.message path)
  | .error (.brokenOff breakdown) => return .error breakdown

/-- Carries out operations on a formula from the first step to the end. -/
def carryOut (read : Path → Except FileError String) (origin : FormulaSource)
    (operations : List (Option Operation)) : Logged (Except Breakdown Ending) := do
  let result ← (attempt read origin operations).run
  conclude result

/-- Runs what a command asks for, where `read` gives the content of files. -/
def run (read : Path → Except FileError String) (request : Arguments) :
    Logged (Except Breakdown Ending) := do
  modify (·.configure request.verbose request.debug)
  carryOut read request.source request.chain

/-!
### Sessions

A command that is understood starts a session with the logger as it was left before.
-/

/-- What a run leaves: how it ended, and the records that were written meanwhile. -/
structure Session where
  ending : Except Breakdown Ending
  written : List Record

/-- The session of a command with the given arguments, where `read` gives the content of files. -/
def session (read : Path → Except FileError String) (logger : Logger) (arguments : List String) :
    Except Stop Session := do
  let request ← Arguments.parse arguments
  let (ending, after) := run read request { logger with written := [] }
  return { ending := ending, written := after.written }

/-!
### Responses

What is seen of a run: its exit code, its lines, and the records that were written.
-/

/-- What is seen of a command. -/
inductive Response where
  /-- The command ended before anything was done. -/
  | stopped (stop : Stop)
  /-- The run broke off. -/
  | broken (breakdown : Breakdown)
  /-- The command ran. -/
  | ran (exitCode : Nat) (output log : String)
deriving Repr, DecidableEq

/-- The text of lines, each with its line break. -/
def outputText (lines : List String) : String :=
  String.join (lines.map (· ++ "\n"))

/-- The text of records that were written. -/
def logText (records : List Record) : String :=
  String.join (records.map Record.line)

/-- What is seen of a command with the given arguments, where `read` gives the content of files. -/
def respond (read : Path → Except FileError String) (arguments : List String) : Response :=
  match session read {} arguments with
  | .error stop => .stopped stop
  | .ok { ending := .error breakdown, .. } => .broken breakdown
  | .ok { ending := .ok ending, written := written } =>
      .ran ending.exitCode (outputText ending.lines) (logText written)

end PredicateLogic.CommandLine
