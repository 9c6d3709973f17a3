/-
Module: PredicateLogic.Log.Trace
Purpose: The events of reading and transforming a formula, in the order in which they happen.
Main exports:
  Trace.read, Trace.negate, Trace.negationNormal, Trace.implicationFree,
  Trace.pullQuantifiers, Trace.freeVariables, Trace.rename
-/
import PredicateLogic.Formula.ImplicationFree
import PredicateLogic.Formula.NegationNormal
import PredicateLogic.Formula.Prenex
import PredicateLogic.Log.Event
import PredicateLogic.Renaming.Basic
import PredicateLogic.Source

namespace PredicateLogic.Log.Trace

/-!
### Traces

Reading and transforming know nothing of logs.  A trace is worked out next to them, from the formula
they start with, and tells what they do.
-/

/-- The events of reading a formula. -/
def read (source : Source) : List Event :=
  .reading source.inserted ::
    match source.parse with
    | .ok f => [.read f.kind]
    | .error (.malformed (.illegalCharacter c position)) =>
        [.illegalCharacter c position, .malformed]
    | .error (.malformed _) => [.malformed]
    | .error error => [.notReadable error.message]

/-- The events of negating a formula. -/
def negate (f : Formula) : List Event :=
  [.ofTransform "negate" f f.negate]

/-- The events of bringing the negations of a formula down to its atoms. -/
def negationNormal (f : Formula) : List Event :=
  [.ofTransform "collapse_negations" f f.negationNormal]

/-- The negations passed inward on the way to a formula without implications, one for each
implication, from the leaves to the root. -/
def passedNegations : Formula → List Event
  | .neg argument _ => passedNegations argument
  | .binary .implication left right _ =>
      passedNegations left ++ passedNegations right ++ negate left.implicationFree
  | .binary _ left right _ => passedNegations left ++ passedNegations right
  | .group body _ => passedNegations body
  | .quantified _ _ body _ => passedNegations body
  | _ => []

/-- The events of writing the implications of a formula as disjunctions. -/
def implicationFree (f : Formula) : List Event :=
  passedNegations f ++ [.ofTransform "remove_implications" f f.implicationFree]

/-- The event of binders pulled out of two operands. -/
def pull (c : Connective) (left right : Formula) : Event :=
  let binders := left.leadingBinders ++ right.leadingBinders
  .pulled (Text.separated " " (binders.map Binder.text)) c.symbol

/-- The binders pulled on the way to a formula with its quantifiers on the left, from the leaves to
the root. -/
def pulls : Formula → List Event
  | .neg argument _ => pulls argument
  | .binary c left right _ =>
      let newLeft := left.pullQuantifiers
      let newRight := right.pullQuantifiers
      let here := if Formula.pulls c newLeft newRight then [pull c newLeft newRight] else []
      pulls left ++ pulls right ++ here
  | .group body _ => pulls body
  | .quantified _ _ body _ => pulls body
  | _ => []

/-- The events of pulling the quantifiers of a formula to the left. -/
def pullQuantifiers (f : Formula) : List Event :=
  pulls f ++ [.ofTransform "move_quantifiers_left" f f.pullQuantifiers]

/-- The events of asking for the free variables of a formula. -/
def freeVariables (f : Formula) : List Event :=
  match f.freeVariables with
  | .error _ => []
  | .ok names => [.freeVariables f.text (sortedNames names)]

/-- The events of the replacements that a scope has recorded. -/
def replacements (scope : Scope) : List Event :=
  scope.replaced.map fun entry => .renamed entry.1 entry.2

/-- The events of renaming the bound variables of a formula. -/
def rename (f : Formula) : List Event :=
  freeVariables f ++
    match Scope.ofFormula f with
    | .error _ => []
    | .ok scope =>
        match f.renameIn scope with
        | .error left => replacements left
        | .ok (renamed, after) => replacements after ++ [.ofTransform "rename" f renamed]

end PredicateLogic.Log.Trace
