/-
Module: PredicateLogic.Operation
Purpose: The named operations on a formula, and chains of them.
Main exports:
  Operation, Operation.ofName?, Operation.transform, Operation.report, Operation.reports,
  Operation.reportsNamed
-/
import PredicateLogic.Log.Trace

namespace PredicateLogic

/-!
### Operations

A transformation takes the place of the current formula and is reported as its text.  A question
leaves the formula as it is and is reported as its answer, on one line.
-/

/-- The operations that can be asked for by name. -/
inductive Operation where
  | print
  | negate
  | negationNormal
  | implicationFree
  | pullQuantifiers
  | rename
  | nameTable
  | freeVariables
deriving Repr, DecidableEq

namespace Operation

/-- The name of an operation. -/
def name : Operation → String
  | .print => "stringify"
  | .negate => "negate"
  | .negationNormal => "collapse"
  | .implicationFree => "remove-implications"
  | .pullQuantifiers => "move-quantifiers-left"
  | .rename => "rename"
  | .nameTable => "names"
  | .freeVariables => "free"

/-- Every operation, each once. -/
def all : List Operation :=
  [.print, .negate, .negationNormal, .implicationFree, .pullQuantifiers, .rename, .nameTable,
    .freeVariables]

/-- The operation with the given name. -/
def ofName? (text : String) : Option Operation :=
  all.find? fun operation => operation.name == text

/-- The formula after an operation. -/
def transform (operation : Operation) (f : Formula) : Except NamingError Formula :=
  match operation with
  | .negate => .ok f.negate
  | .negationNormal => .ok f.negationNormal
  | .implicationFree => .ok f.implicationFree
  | .pullQuantifiers => .ok f.pullQuantifiers
  | .rename => f.rename
  | _ => .ok f

/-- The line that reports a name table. -/
def tableLine (table : NameTable) : String :=
  Text.commaSeparated (table.map fun entry => entry.1 ++ ": " ++ entry.2.label)

/-- The line that reports names. -/
def namesLine (names : List String) : String :=
  Text.commaSeparated (sortedNames names)

/-- The formula after an operation, and the line that reports the operation. -/
def report (operation : Operation) (f : Formula) : Except NamingError (Formula × String) :=
  match operation with
  | .nameTable => f.nameTable.map fun table => (f, tableLine table)
  | .freeVariables => f.freeVariables.map fun names => (f, namesLine names)
  | operation => (operation.transform f).map fun next => (next, next.text)

/-- The events of an operation. -/
def trace (operation : Operation) (f : Formula) : List Log.Event :=
  match operation with
  | .negate => Log.Trace.negate f
  | .negationNormal => Log.Trace.negationNormal f
  | .implicationFree => Log.Trace.implicationFree f
  | .pullQuantifiers => Log.Trace.pullQuantifiers f
  | .rename => Log.Trace.rename f
  | .freeVariables => Log.Trace.freeVariables f
  | _ => []

/-!
### Chains

Operations are applied from left to right, each to what the one before it left.  The first that
fails ends the chain.
-/

/-- The lines that report a chain of operations. -/
def reports (f : Formula) : List Operation → Except NamingError (List String)
  | [] => .ok []
  | operation :: rest => do
      let (next, line) ← operation.report f
      let lines ← reports next rest
      return line :: lines

/-- The events of a chain of operations, those of the failing one included. -/
def traces (f : Formula) : List Operation → List Log.Event
  | [] => []
  | operation :: rest =>
      operation.trace f ++
        match operation.report f with
        | .error _ => []
        | .ok (next, _) => traces next rest

/-- Why a chain of operations given by name has no report. -/
inductive ChainError where
  | unknown (name : String)
  | failed (error : NamingError)
deriving Repr, DecidableEq

/-- The wording of an error: of an unknown operation only its name, in quotation marks. -/
def ChainError.message : ChainError → String
  | .unknown name => Text.quoted name
  | .failed error => error.message

/-- The lines that report a chain of operations given by name.  An unknown name is met only after
all operations before it were applied. -/
def reportsNamed (f : Formula) : List String → Except ChainError (List String)
  | [] => .ok []
  | name :: rest =>
      match ofName? name with
      | none => .error (.unknown name)
      | some operation => do
          let (next, line) ← (operation.report f).mapError ChainError.failed
          let lines ← reportsNamed next rest
          return line :: lines

end Operation

end PredicateLogic
