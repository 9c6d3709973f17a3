/-
Module: PredicateLogic.CommandLine.Action
Purpose: What the options of a command ask for.
Main exports:
  Action, Reading, readAlone, readCluster, readOption
-/
import PredicateLogic.CommandLine.Word

namespace PredicateLogic.CommandLine

/-!
### Actions

An option asks for one action.  Some options take a value: the one attached to them, behind an
equals sign or, for a short option, without one, or else the next argument.  Two dashes attached to
an option give it no value at all.
-/

/-- What an option asks for. -/
inductive Action where
  | help
  | file (path : Option String)
  | operation (name : Option String)
  | verbose
  | debug
deriving Repr, DecidableEq

/-- How an option is understood: as an action right away, or as one that waits for a value. -/
def OptionName.meaning : OptionName → Action ⊕ (Option String → Action)
  | .help => .inl .help
  | .verbose => .inl .verbose
  | .debug => .inl .debug
  | .file => .inr .file
  | .operation => .inr .operation

/-- The value that a text attached to an option gives, if it gives one.  That two dashes give none
is the rule of earlier patch releases of the standard argument parser: they drop two dashes from the
values of every option.  Later releases keep them where they are attached, as the value `--`. -/
def attachedValue (text : String) : Option String :=
  if text == "--" then none else some text

/-- The actions of one argument. -/
structure Reading where
  actions : List Action
  /-- Whether the next argument was taken as a value. -/
  takesNext : Bool := false

/-- The value that the next argument gives, if it is no option. -/
def nextValue : List Word → Except Stop String
  | .plain value :: _ => .ok value
  | _ => .error .misuse

/-- The action of an option with nothing attached to it. -/
def readAlone (following : List Word) (name : OptionName) : Except Stop Reading :=
  match name.meaning with
  | .inl action => .ok { actions := [action] }
  | .inr action => do
      let value ← nextValue following
      return { actions := [action (some value)], takesNext := true }

/-- The actions of a short option with characters attached to it: its value if it takes one, and
more short options otherwise. -/
def readCluster (following : List Word) (name : OptionName) :
    List Char → Except Stop Reading
  | [] => readAlone following name
  | c :: rest =>
      match name.meaning with
      | .inr action => .ok { actions := [action (attachedValue (String.ofList (c :: rest)))] }
      | .inl action =>
          match OptionName.ofShort? c with
          | none => .error .misuse
          | some next => do
              let others ← readCluster following next rest
              return { others with actions := action :: others.actions }

/-- The action of an option by itself, with the value behind an equals sign, if any. -/
def readOption (following : List Word) (name : OptionName) (value : Option String) :
    Except Stop Reading :=
  match value with
  | none => readAlone following name
  | some text =>
      match name.meaning with
      | .inl _ => .error .misuse
      | .inr action => .ok { actions := [action (attachedValue text)] }

end PredicateLogic.CommandLine
