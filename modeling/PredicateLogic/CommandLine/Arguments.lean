/-
Module: PredicateLogic.CommandLine.Arguments
Purpose: What the arguments of a command ask for.
Main exports:
  Arguments, FormulaSource, Arguments.parse
-/
import PredicateLogic.CommandLine.Action
import PredicateLogic.Operation

namespace PredicateLogic.CommandLine

/-!
### Requests

A command names one formula, by its text or by a file, the operations to apply to it, and how much
to tell about the run.  A file or an operation may be asked for without a name.
-/

/-- Where the formula of a run comes from. -/
inductive FormulaSource where
  | text (text : String)
  | file (path : String)
  /-- A file was asked for without a name.  This takes an argument parser that drops two dashes
  attached as a value (`attachedValue`): with one that keeps them, the file is called `--`. -/
  | unnamedFile
deriving Repr, DecidableEq

/-- The file at a path, if one is given. -/
def FormulaSource.ofFile : Option String → FormulaSource
  | some path => .file path
  | none => .unnamedFile

/-- What a command asks for. -/
structure Arguments where
  source : FormulaSource
  /-- The operations in order, with `none` for one that was asked for without a name. -/
  operations : List (Option Operation) := []
  verbose : Bool := false
  debug : Bool := false
deriving Repr, DecidableEq

/-!
### Collecting

The words are taken from left to right.  The first that is no option is the text of the formula;
further ones, and unknown options, are left over.  Leftovers and a missing formula are told only at
the end, so asking for help before the end wins over them.
-/

/-- What the words so far ask for. -/
structure Collected where
  text : Option String := none
  file : Option FormulaSource := none
  operations : List (Option Operation) := []
  verbose : Bool := false
  debug : Bool := false
  /-- Whether the place of the formula's text has been passed. -/
  placed : Bool := false
  leftover : Bool := false

namespace Collected

/-- Takes one action.  A file is refused next to a text, and an unknown operation altogether. -/
def act (state : Collected) : Action → Except Stop Collected
  | .help => .error .help
  | .verbose => .ok { state with verbose := true }
  | .debug => .ok { state with debug := true }
  | .operation none => .ok { state with operations := state.operations ++ [none] }
  | .operation (some name) =>
      match Operation.ofName? name with
      | none => .error .misuse
      | some operation =>
          .ok { state with operations := state.operations ++ [some operation] }
  | .file path =>
      if state.text.isSome then .error .misuse
      else .ok { state with file := some (.ofFile path) }

/-- Takes actions one after the other. -/
def actAll (state : Collected) : List Action → Except Stop Collected
  | [] => .ok state
  | action :: rest => do
      let next ← state.act action
      next.actAll rest

/-- Puts a text, or none, in the place of the formula's text. -/
def place (state : Collected) (text : Option String) : Except Stop Collected :=
  if text.isSome && state.file.isSome then .error .misuse
  else .ok { state with text := text, placed := true }

/-- Takes words from left to right. -/
def collect (state : Collected) : List Word → Except Stop Collected
  | [] => .ok state
  | .option name value :: rest => do
      let reading ← readOption rest name value
      let next ← state.actAll reading.actions
      next.collect (rest.drop reading.takesNext.toNat)
  | .cluster name attached :: rest => do
      let reading ← readCluster rest name attached
      let next ← state.actAll reading.actions
      next.collect (rest.drop reading.takesNext.toNat)
  | .unknown :: rest => { state with leftover := true }.collect rest
  | word :: rest =>
      if state.placed then
        { state with leftover := true }.collect rest
      else
        match word, rest with
        | .plain text, .terminator :: rest => do
            let next ← state.place (some text)
            next.collect rest
        | .plain text, rest => do
            let next ← state.place (some text)
            next.collect rest
        | _, .plain text :: rest => do
            let next ← state.place (some text)
            next.collect rest
        | _, rest => do
            let next ← state.place none
            next.collect rest
termination_by words => words.length
decreasing_by
  all_goals
    simp only [List.length_cons, List.length_drop]
    omega

/-- Where the formula comes from, once all words are taken. -/
def source? (state : Collected) : Option FormulaSource :=
  state.file <|> state.text.map .text

/-- The request, once all words are taken. -/
def finish (state : Collected) : Except Stop Arguments :=
  match state.leftover, state.source? with
  | false, some source =>
      .ok
        { source := source, operations := state.operations, verbose := state.verbose,
          debug := state.debug }
  | _, _ => .error .misuse

end Collected

/-- What the arguments of a command ask for. -/
def Arguments.parse (arguments : List String) : Except Stop Arguments := do
  let words ← Word.ofArguments arguments
  let collected ← Collected.collect {} words
  collected.finish

end PredicateLogic.CommandLine
