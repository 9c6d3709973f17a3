/-
Module: PredicateLogic.Lookup
Purpose: Finding a symbol by its label.
Main exports:
  UnknownLabel, Lookup.token, Lookup.operator, Lookup.quantifier
-/
import PredicateLogic.Token.Basic
import PredicateLogic.Text.Quoted

namespace PredicateLogic

/-- A label that nothing of the given sort has. -/
structure UnknownLabel where
  label : String
  sort : String
deriving Repr, DecidableEq

/-- The wording of a failed look-up. -/
def UnknownLabel.message (unknown : UnknownLabel) : String :=
  Text.quoted unknown.label ++ " is not a valid " ++ unknown.sort

namespace Lookup

/-- The value that was found, or the label that was not. -/
def found {α : Type} (label sort : String) : Option α → Except UnknownLabel α
  | some a => .ok a
  | none => .error { label := label, sort := sort }

/-- The class of tokens with a label. -/
def token (label : String) : Except UnknownLabel TokenClass :=
  found label "TokenId" (TokenClass.ofLabel? label)

/-- The operator with a label. -/
def operator (label : String) : Except UnknownLabel Operator :=
  found label "Operator" (Operator.ofLabel? label)

/-- The quantifier with a label. -/
def quantifier (label : String) : Except UnknownLabel Quantifier :=
  found label "Quantifier" (Quantifier.ofLabel? label)

end Lookup

end PredicateLogic
