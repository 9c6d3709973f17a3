/-
Module: PredicateLogic.Formula.FreeVariables
Purpose: Free and bound occurrences of variables.
Main exports:
  ScopeWalk, Formula.seek, Formula.hasFree, Formula.marking, Formula.mark, Formula.freeIn,
  Formula.freeVariables, sortedNames
-/
import PredicateLogic.Formula.Identifiers
import PredicateLogic.Term.Occurrences

namespace PredicateLogic

/-!
### The names bound around a place

An occurrence of a variable is bound when a quantifier around it binds its name, and free
otherwise.  A walk over a formula keeps a stack of the names that count as bound: some from the
start, and those of the quantifiers around the place where the walk is.  A name that is bound twice
stands there twice.
-/

/-- A walk over a formula with a stack of names, the innermost last. -/
abbrev ScopeWalk (α : Type) := StateM (List String) α

/-- A walk inside a quantifier: its name is on the stack while the walk lasts. -/
def ScopeWalk.inside {α : Type} (name : String) (walk : ScopeWalk α) : ScopeWalk α := do
  modify (· ++ [name])
  let answer ← walk
  modify List.dropLast
  return answer

/-!
### Free occurrences
-/

/-- Whether an occurrence has a name that none of the given quantifiers binds. -/
def Variable.isFree (bound : List String) (v : Variable) : Bool :=
  !bound.contains v.name

/-- Whether a name occurs in a term and is not among the bound names. -/
def Term.hasFree (name : String) (bound : List String) (t : Term) : Bool :=
  t.occurrences.any fun v => v.name == name && v.isFree bound

/-- The walk that looks for a name where no name on the stack binds it.  It ends with the first
occurrence that it finds. -/
def Formula.seek (name : String) : Formula → ScopeWalk Bool
  | .empty _ => return false
  | .term t => return t.hasFree name (← get)
  | .literal _ _ => return false
  | .predicate _ args _ => return args.any (Term.hasFree name (← get))
  | .neg argument _ => argument.seek name
  | .binary _ left right _ => do
      if ← left.seek name then return true
      right.seek name
  | .group body _ => body.seek name
  | .quantified _ v body _ => .inside v.name (body.seek name)

/-- Whether a name occurs free in a formula inside quantifiers that bind the given names. -/
def Formula.hasFree (name : String) (bound : List String) (f : Formula) : Bool :=
  (f.seek name bound).1

/-!
### Marks

Marking sets the mark of every occurrence, and marks the variable of each quantifier as not free.
-/

/-- The occurrence marked as free or bound by the given names. -/
def Variable.mark (bound : List String) (v : Variable) : Variable :=
  { v with free := some (v.isFree bound) }

/-- The walk that marks every occurrence as free or bound by a name on the stack. -/
def Formula.marking : Formula → ScopeWalk Formula
  | .empty span => return .empty span
  | .term t => return .term (t.mapOccurrences (Variable.mark (← get)))
  | .literal value span => return .literal value span
  | .predicate name args span =>
      return .predicate name (args.map (Term.mapOccurrences (Variable.mark (← get)))) span
  | .neg argument span => return .neg (← argument.marking) span
  | .binary c left right span => return .binary c (← left.marking) (← right.marking) span
  | .group body span => return .group (← body.marking) span
  | .quantified q v body span =>
      return .quantified q { v with free := some false } (← .inside v.name body.marking) span

/-- The formula with every occurrence marked as free or bound, inside quantifiers that bind the
given names. -/
def Formula.mark (bound : List String) (f : Formula) : Formula :=
  (f.marking bound).1

/-!
### Free variables

The free variables of a formula are the variables and constants of its name table that occur free.
They are listed in the order of the table, and shown in the order of their code points.
-/

/-- The variables and constants of a table that occur free in a formula. -/
def Formula.freeIn (f : Formula) (table : NameTable) : List String :=
  table.individuals.filter fun name => f.hasFree name []

/-- The names that occur free in a formula, in the order in which they are first seen. -/
def Formula.freeVariables (f : Formula) : Except NamingError (List String) := do
  let table ← f.nameTable
  return f.freeIn table

/-- Names in the order of their code points. -/
def sortedNames (names : List String) : List String :=
  names.mergeSort fun a b => decide (a ≤ b)

theorem mem_sortedNames {name : String} {names : List String} :
    name ∈ sortedNames names ↔ name ∈ names := by
  simp [sortedNames]

end PredicateLogic
