/-
Module: PredicateLogic.Renaming.Scope
Purpose: The names in effect at one place of a walk over a formula.
Main exports:
  Scope, Scope.ofFormula, Scope.takeLetter, Scope.nameFor, Scope.givenNames, Scope.choose,
  Scope.bindName, Scope.release
-/
import PredicateLogic.Formula.FreeVariables

namespace PredicateLogic

/-!
### Scopes

Renaming walks over a formula from left to right.  On the way it keeps the names that are taken,
the names bound around the current place, the names that bound variables were given, and the
letters that are left as fresh names.
-/

/-- The letters that can serve as fresh names, in the order in which they are handed out. -/
def alphabet : List String :=
  "abcdefghijklmnopqrstuvwxyz".toList.map Char.toString

/-- The names in effect at one place of a walk over a formula. -/
structure Scope where
  /-- The names that are taken, by a free variable, a binder or an occurrence. -/
  taken : List String := []
  /-- The names bound around this place, outermost first. -/
  enclosing : List String := []
  /-- The names of the text with the names given to them. -/
  given : List (String × String) := []
  /-- The fresh names that are left, in the order in which they are handed out. -/
  letters : List String := alphabet
  /-- The bound names that were replaced so far, each with its fresh name, oldest first. -/
  replaced : List (String × String) := []
deriving Repr, DecidableEq

namespace Scope

/-- The scope with a name marked as taken. -/
def take (scope : Scope) (name : String) : Scope :=
  if scope.taken.contains name then scope else { scope with taken := scope.taken ++ [name] }

/-- The scope with several names marked as taken. -/
def takeAll (scope : Scope) (names : List String) : Scope :=
  names.foldl take scope

/-- The first letter that is left, and the scope in which it is taken. -/
def takeLetter (scope : Scope) : Except NamingError (String × Scope) :=
  match scope.letters with
  | [] => .error .exhausted
  | name :: rest => .ok (name, { scope with letters := rest }.take name)

/-- The name that stands for a name of the text. -/
def nameFor (scope : Scope) (name : String) : String :=
  (scope.given.lookup name).getD name

/-- The names of the text that have a name given to them, each with that name, in the order of their
code points. -/
def givenNames (scope : Scope) : List (String × String) :=
  let written := sortedNames (scope.given.map Prod.fst).eraseDups
  written.map fun name => (name, scope.nameFor name)

/-- The name that the variable of a quantifier is given, and the scope in which it is taken.  A name
that is taken already is replaced by a fresh one. -/
def choose (scope : Scope) (written : String) : Except NamingError (String × Scope) :=
  if scope.taken.contains written then do
    let (name, next) ← scope.takeLetter
    return (name, { next with replaced := next.replaced ++ [(written, name)] })
  else
    return (written, scope.take written)

/-!
### Bindings

A name of the text has at most one name given to it.  A quantifier overwrites the name given to its
variable further out, and at its end that name is put back, or taken out if there was none.
-/

/-- Given names in which `written` has been given a name, in the place of the one it had. -/
def assign (written name : String) : List (String × String) → List (String × String)
  | [] => [(written, name)]
  | entry :: rest =>
      if written == entry.1 then (entry.1, name) :: rest else entry :: assign written name rest

/-- Given names in which `written` has none any more. -/
def unassign (written : String) (given : List (String × String)) : List (String × String) :=
  given.eraseP fun entry => written == entry.1

/-- The scope inside a quantifier whose variable is written `written` and named `name`. -/
def bindName (scope : Scope) (written name : String) : Scope :=
  { scope with
    given := assign written name scope.given
    enclosing := scope.enclosing ++ [name] }

/-- The scope behind a quantifier whose variable is written `written`, where `shadowed` is the name
that was given to it further out, if any. -/
def release (scope : Scope) (written : String) (shadowed : Option String) : Scope :=
  { scope with
    given :=
      match shadowed with
      | none => unassign written scope.given
      | some name => assign written name scope.given
    enclosing := scope.enclosing.dropLast }

/-- The scope that renaming a formula starts with: its free variables are taken, and the letters
that it does not use are left. -/
def ofFormula (f : Formula) : Except NamingError Scope := do
  let table ← f.nameTable
  return {
    taken := f.freeIn table
    letters := alphabet.filter fun letter => !table.domain.contains letter }

/-- The scope that renaming starts with is made from the name table of the formula. -/
theorem ofFormula_eq_ok_iff {f : Formula} {scope : Scope} :
    ofFormula f = .ok scope ↔ ∃ table, f.nameTable = .ok table ∧
      scope =
        { taken := f.freeIn table
          letters := alphabet.filter fun letter => !table.domain.contains letter } := by
  unfold ofFormula
  cases f.nameTable <;> simp [bind, Except.bind, pure, Except.pure, eq_comm]

theorem mem_take {scope : Scope} {name other : String} :
    other ∈ (scope.take name).taken ↔ other ∈ scope.taken ∨ other = name := by
  unfold take
  split
  case isTrue known =>
    have : name ∈ scope.taken := by simpa using known
    constructor
    · exact Or.inl
    · rintro (member | rfl)
      · exact member
      · exact this
  case isFalse => simp

theorem mem_takeAll {scope : Scope} {names : List String} {other : String} :
    other ∈ (scope.takeAll names).taken ↔ other ∈ scope.taken ∨ other ∈ names := by
  unfold takeAll
  induction names generalizing scope with
  | nil => simp
  | cons name rest ih => simp [ih, mem_take, or_assoc]

end Scope

end PredicateLogic
