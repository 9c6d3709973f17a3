/-
Module: PredicateLogic.Source
Purpose: What a caller may hand in where the text of a formula is wanted.
Main exports:
  Source, Source.shown, Source.parse, Source.formula, SourceError
-/
import PredicateLogic.Formula.Parser
import PredicateLogic.Text.Quoted

namespace PredicateLogic

/-!
### Sources

A formula is read from text.  A caller may hand in no text at all, which is read like an empty one,
or a value that is not text, which is refused; zero and false are taken for nothing at all.
-/

/-- A value handed in as the text of a formula. -/
inductive Source where
  | absent
  | flag (value : Bool)
  | number (value : Int)
  | text (value : String)
deriving Repr, DecidableEq

/-- Why a value that was handed in gives no formula. -/
inductive SourceError where
  /-- The text is not a formula. -/
  | malformed (error : ParseError)
  /-- The value cannot be read character by character; its type is given. -/
  | notReadable (type : String)
  /-- The value is not what a formula can be made from; it is given as it is shown. -/
  | notFormula (shown : String)
deriving Repr, DecidableEq

/-- The wording of an error. -/
def SourceError.message : SourceError → String
  | .malformed error => error.message
  | .notReadable type => "'" ++ type ++ "' object is not subscriptable"
  | .notFormula shown => "Invalid formula input format: " ++ shown

namespace Source

/-- How a value is shown in messages, text in quotation marks. -/
def shown : Source → String
  | .absent => "None"
  | .flag true => "True"
  | .flag false => "False"
  | .number value => value.repr
  | .text value => Text.quoted value

/-- How a value is shown where its text is inserted as it is. -/
def inserted : Source → String
  | .text value => value
  | other => other.shown

/-- The formula that a value spells. -/
def parse : Source → Except SourceError Formula
  | .text value => (Formula.parse value).mapError .malformed
  | .number 0 => .ok (.empty (.between 0 0))
  | .number _ => .error (.notReadable "int")
  | .flag true => .error (.notReadable "bool")
  | .flag false => .ok (.empty (.between 0 0))
  | .absent => .ok (.empty (.between 0 0))

/-- The formula that a value spells, where nothing but text is allowed. -/
def formula : Source → Except SourceError Formula
  | .text value => (Formula.parse value).mapError .malformed
  | other => .error (.notFormula other.shown)

end Source

end PredicateLogic
