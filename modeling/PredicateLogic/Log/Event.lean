/-
Module: PredicateLogic.Log.Event
Purpose: What happens while formulas are read and transformed, and the words it is told in.
Main exports:
  Event, Event.message, Event.record
-/
import PredicateLogic.Formula.Text
import PredicateLogic.Log.Record
import PredicateLogic.Text.Quoted

namespace PredicateLogic.Log

open Text

/-- Something that happens on the way. -/
inductive Event where
  /-- The text of a formula is about to be read. -/
  | reading (text : String)
  /-- No token can start with a character. -/
  | illegalCharacter (character : Char) (position : Nat)
  /-- A formula was read. -/
  | read (kind : Formula.Kind)
  /-- The text was no formula. -/
  | malformed
  /-- What was to be read was not text. -/
  | notReadable (message : String)
  /-- An operation turned one text into another. -/
  | transformed (operation before after : String)
  /-- A bound variable was given a fresh name. -/
  | renamed (name fresh : String)
  /-- Binders were pulled out in front of a connective. -/
  | pulled (binders connective : String)
  /-- The free variables of a formula were asked for. -/
  | freeVariables (text : String) (names : List String)
deriving Repr, DecidableEq

namespace Event

/-- The wording of an event. -/
def message : Event → String
  | .reading text => "Parsing formula: " ++ text
  | .illegalCharacter c position =>
      "Illegal character '" ++ c.toString ++ "' at position " ++ position.repr
  | .read kind => "Successfully parsed formula into " ++ kind.label
  | .malformed => "ParseError encountered during formula parsing"
  | .notReadable message => "Unexpected parsing error: TypeError: " ++ message
  | .transformed operation before after =>
      operation ++ ": " ++ quoted before ++ " -> " ++ quoted after
  | .renamed name fresh =>
      "    rename: bound variable '" ++ name ++ "' becomes '" ++ fresh ++ "'"
  | .pulled binders connective => "    moved [" ++ binders ++ "] left over '" ++ connective ++ "'"
  | .freeVariables text names =>
      "Free variables of " ++ quoted text ++ ": " ++ quotedList names

/-- The record of an event: all of them are details, at the lowest named level. -/
def record (event : Event) : Record :=
  .ofLevel .debug event.message

/-- The event of an operation that turned one formula into another. -/
def ofTransform (operation : String) (before after : Formula) : Event :=
  .transformed operation before.text after.text

end Event

end PredicateLogic.Log
