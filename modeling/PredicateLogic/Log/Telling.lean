/-
Module: PredicateLogic.Log.Telling
Purpose: Reading and transforming formulas with a logger at hand.
Main exports:
  Telling.read, Telling.negate, Telling.negationNormal, Telling.implicationFree,
  Telling.pullQuantifiers, Telling.freeVariables, Telling.rename
-/
import PredicateLogic.Log.Logger
import PredicateLogic.Log.Trace

namespace PredicateLogic.Log.Telling

/-!
### Reading

An illegal character is told where the text is cut into tokens.  Whatever the reason is that no
formula was read, it is told once more on the way out.
-/

/-- Reads the formula that a value spells. -/
def readFormula (source : Source) : LoggedExcept SourceError Formula := do
  tell (.reading source.inserted)
  match source.parse with
  | .ok f =>
      tell (.read f.kind)
      return f
  | .error (.malformed (.illegalCharacter c position)) =>
      tell (.illegalCharacter c position)
      throw (.malformed (.illegalCharacter c position))
  | .error error => throw error

/-- The event of a value that gives no formula. -/
def refusal : SourceError → Event
  | .malformed _ => .malformed
  | error => .notReadable error.message

/-- Reads the formula that a value spells, and tells if there is none. -/
def read (source : Source) : LoggedExcept SourceError Formula := do
  match ← ExceptT.lift (readFormula source).run with
  | .ok f => return f
  | .error error =>
      tell (refusal error)
      throw error

/-!
### Transforming

Each operation tells what it turned into what.  Writing out an implication negates its left operand
by the operation for negations, which tells of it, too.
-/

/-- Negates a formula. -/
def negate (f : Formula) : Logged Formula := do
  let result := f.negate
  tell (.ofTransform "negate" f result)
  return result

/-- Brings the negations of a formula down to its atoms. -/
def negationNormal (f : Formula) : Logged Formula := do
  let result := f.negationNormal
  tell (.ofTransform "collapse_negations" f result)
  return result

/-- Writes the implications of a formula as disjunctions, from the leaves to the root. -/
def spellOut : Formula → Logged Formula
  | .neg argument span => return .neg (← spellOut argument) span
  | .binary .implication left right span => do
      let left ← spellOut left
      let right ← spellOut right
      return .binary .disjunction (← negate left) right span
  | .binary c left right span => return .binary c (← spellOut left) (← spellOut right) span
  | .group body span => return .group (← spellOut body) span
  | .quantified q bound body span => return .quantified q bound (← spellOut body) span
  | f => return f

/-- Writes the implications of a formula as disjunctions. -/
def implicationFree (f : Formula) : Logged Formula := do
  let result ← spellOut f
  tell (.ofTransform "remove_implications" f result)
  return result

/-- Pulls the quantifiers of a formula to the left, from the leaves to the root. -/
def pull : Formula → Logged Formula
  | .neg argument span => return .neg (← pull argument) span
  | .binary c left right span => do
      let newLeft ← pull left
      let newRight ← pull right
      if Formula.pulls c newLeft newRight then
        tell (Trace.pull c newLeft newRight)
        return Formula.joinBound c left.isGroup right.isGroup newLeft newRight
      else
        return .binary c newLeft newRight span
  | .group body span => do
      let newBody ← pull body
      return if newBody.isQuantified then newBody else .group newBody span
  | .quantified q bound body span => return .quantified q bound (← pull body) span
  | f => return f

/-- Pulls the quantifiers of a formula to the left. -/
def pullQuantifiers (f : Formula) : Logged Formula := do
  let result ← pull f
  tell (.ofTransform "move_quantifiers_left" f result)
  return result

/-!
### Names

Renaming starts with the question for the free variables, and tells of every fresh name as it is
handed out.
-/

/-- Answers the question for the free variables of a formula. -/
def freeVariables (f : Formula) : LoggedExcept NamingError (List String) := do
  let names ← f.freeVariables
  tell (.freeVariables f.text (sortedNames names))
  return names

/-- Sets up the scope that renaming a formula starts with. -/
def scopeOf (f : Formula) : LoggedExcept NamingError Scope := do
  let scope ← Scope.ofFormula f
  let taken ← freeVariables f
  return { scope with taken := taken }

/-- Gives the variable of a quantifier its name. -/
def choose (scope : Scope) (written : String) : LoggedExcept NamingError (String × Scope) := do
  if scope.taken.contains written then
    let (name, next) ← scope.takeLetter
    tell (.renamed written name)
    return (name, { next with replaced := next.replaced ++ [(written, name)] })
  else
    return (written, scope.take written)

/-- Renames the clashing bound variables of a formula. -/
def renameIn (scope : Scope) : Formula → LoggedExcept Scope (Formula × Scope)
  | .neg argument span => do
      let (argument, after) ← renameIn scope argument
      return (.neg argument span, after)
  | .binary c left right span => do
      let (left, between) ← renameIn scope left
      let (right, after) ← renameIn between right
      return (.binary c left right span, after)
  | .group body span => do
      let (body, after) ← renameIn scope body
      return (.group body span, after)
  | .quantified q bound body span => do
      let (name, next) ← (choose scope bound.name).adapt fun _ => scope
      let shadowed := next.given.lookup bound.name
      let (body, after) ← renameIn (next.bindName bound.name name) body
      return (.quantified q { bound with name := name } body span,
        after.release bound.name shadowed)
  | f => f.renameIn scope

/-- Renames the bound variables of a formula that have the name of a free variable or of another
binder. -/
def rename (f : Formula) : LoggedExcept NamingError Formula := do
  let scope ← scopeOf f
  let (renamed, _) ← (renameIn scope f).adapt fun _ => .exhausted
  tell (.ofTransform "rename" f renamed)
  return renamed

end PredicateLogic.Log.Telling
