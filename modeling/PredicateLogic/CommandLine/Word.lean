/-
Module: PredicateLogic.CommandLine.Word
Purpose: What each argument of a command is by itself.
Main exports:
  Stop, OptionName, Word, Word.ofArgument, Word.ofArguments
-/
import PredicateLogic.Text.Digit

namespace PredicateLogic.CommandLine

/-!
### Commands that end early

A command that asks for help, or that cannot be understood, ends before anything is done.
-/

/-- Why a command ends before anything is done. -/
inductive Stop where
  | help
  | misuse
deriving Repr, DecidableEq

/-- The exit code of a command that ends before anything is done. -/
def Stop.exitCode : Stop → Nat
  | .help => 0
  | .misuse => 2

/-!
### Options

Options have long names, and three of them short ones.  A long name may be cut short as long as it
stays unique.
-/

/-- The options of a command. -/
inductive OptionName where
  | help
  | file
  | operation
  | verbose
  | debug
deriving Repr, DecidableEq

namespace OptionName

/-- Every option, each once. -/
def all : List OptionName := [.help, .file, .operation, .verbose, .debug]

/-- The long name of an option, without the two dashes. -/
def long : OptionName → String
  | .help => "help"
  | .file => "file"
  | .operation => "op"
  | .verbose => "verbose"
  | .debug => "debug"

/-- The option with a short name. -/
def ofShort? : Char → Option OptionName
  | 'h' => some .help
  | 'f' => some .file
  | 'v' => some .verbose
  | _ => none

/-- The options whose long names start with the given letters, or the one whose name it is. -/
def ofLong (stem : List Char) : List OptionName :=
  match all.find? fun name => name.long.toList == stem with
  | some name => [name]
  | none => all.filter fun name => stem.isPrefixOf name.long.toList

end OptionName

/-!
### Words

Each argument is looked at by itself first.  Two dashes alone end the options.  Any other argument
that starts with a dash is an option, known or not, unless it is the dash alone, or is unknown and
looks like a negative number or holds a blank.
-/

/-- What an argument is by itself. -/
inductive Word where
  /-- An argument that is no option. -/
  | plain (text : String)
  /-- An option by itself, with the value behind an equals sign, if any. -/
  | option (name : OptionName) (value : Option String)
  /-- A short option with characters attached to it. -/
  | cluster (name : OptionName) (attached : List Char)
  /-- An option that is not known. -/
  | unknown
  /-- The end of the options. -/
  | terminator
deriving Repr, DecidableEq

namespace Word

/-- An argument that starts with a dash and is no known option. -/
def ofDashed (text : List Char) : Word :=
  if Text.isNegativeNumber text || text.contains ' ' then .plain (String.ofList text)
  else .unknown

/-- A short option and the characters behind it.  An equals sign right behind the option makes no
difference, unless nothing follows it: then it gives the empty value. -/
def ofShort (name : OptionName) : List Char → Word
  | [] => .option name none
  | ['='] => .option name (some "")
  | '=' :: attached => .cluster name attached
  | attached => .cluster name attached

/-- What an argument before the end of the options is.  A long name that could be cut from several
options is refused. -/
def ofArgument (argument : String) : Except Stop Word :=
  match argument.toList with
  | '-' :: '-' :: rest =>
      let stem := rest.takeWhile (· != '=')
      let value := (rest.dropWhile (· != '=')).tail?.map String.ofList
      match OptionName.ofLong stem with
      | [name] => .ok (.option name value)
      | [] => .ok (ofDashed argument.toList)
      | _ => .error .misuse
  | '-' :: c :: rest =>
      match OptionName.ofShort? c with
      | some name => .ok (ofShort name rest)
      | none => .ok (ofDashed argument.toList)
  | _ => .ok (.plain argument)

/-- What the arguments are, each by itself. -/
def ofArguments : List String → Except Stop (List Word)
  | [] => .ok []
  | "--" :: rest => .ok (.terminator :: rest.map .plain)
  | argument :: rest => do
      let word ← ofArgument argument
      let words ← ofArguments rest
      return word :: words

end Word

end PredicateLogic.CommandLine
