/-
Module: PredicateLogic.Main
Purpose: The command that transforms formulas.
Main exports:
  main
-/
import PredicateLogic.CommandLine.Run

namespace PredicateLogic.CommandLine

/-- How the command is used, in brief. -/
def usage : String :=
  "usage: [-h] [-f FILE] [--op OPERATION] [-v] [--debug] [formula]\n"

/-- The number and the wording that the system gives to an error.  An error that is none of the
system's is passed on. -/
def systemReason (error : IO.Error) : IO (Nat × String) :=
  match error with
  | .otherError number reason | .resourceBusy number reason | .resourceVanished number reason
  | .unsupportedOperation number reason | .hardwareFault number reason
  | .unsatisfiedConstraints number reason | .illegalOperation number reason
  | .protocolError number reason | .timeExpired number reason
  | .alreadyExists _ number reason | .interrupted _ number reason
  | .noFileOrDirectory _ number reason | .invalidArgument _ number reason
  | .permissionDenied _ number reason | .resourceExhausted _ number reason
  | .inappropriateType _ number reason | .noSuchThing _ number reason =>
      return (number.toNat, reason)
  | .unexpectedEof | .userError _ => throw error

/-- Why a file is not opened. -/
def FileError.ofOpening : Nat × String → FileError
  | (2, _) => .notFound
  | (number, reason) => .unopened number reason

/-- Why an open file is not read.  That it is a directory is found out only here. -/
def FileError.ofReading : Nat × String → FileError
  | (21, _) => .isDirectory
  | (number, reason) => .unread number reason

/-- The content of the file at a path. -/
def readPath (path : Path) : IO (Except FileError String) := do
  if path.text.contains (Char.ofNat 0) then
    return .error .nullCharacter
  match ← (IO.FS.Handle.mk path.text .read).toBaseIO with
  | .error error => return .error (.ofOpening (← systemReason error))
  | .ok file =>
      match ← file.readBinToEnd.toBaseIO with
      | .error error => return .error (.ofReading (← systemReason error))
      | .ok bytes => return (Text.decode bytes.toList).mapError FileError.undecodable

/-- The content of the file that a command asks for, if it asks for one. -/
def readRequested (arguments : List String) : IO (Except FileError String) :=
  match Arguments.parse arguments with
  | .ok { source := .file name, .. } => readPath (Path.ofString name)
  | _ => return .error .notFound

end PredicateLogic.CommandLine

open PredicateLogic.CommandLine in
/-- Runs the command with the given arguments. -/
def main (arguments : List String) : IO UInt32 := do
  let content ← readRequested arguments
  match respond (fun _ => content) arguments with
  | .stopped .help =>
      IO.print usage
      return 0
  | .stopped .misuse =>
      IO.eprint usage
      return 2
  | .broken breakdown =>
      IO.eprint (breakdown.message ++ "\n")
      return 1
  | .ran exitCode output log =>
      IO.eprint log
      IO.print output
      return exitCode.toUInt32
