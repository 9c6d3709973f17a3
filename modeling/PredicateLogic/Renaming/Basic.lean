/-
Module: PredicateLogic.Renaming.Basic
Purpose: Giving fresh names to bound variables whose names are taken.
Main exports:
  Formula.renameIn, Formula.rename
-/
import PredicateLogic.Renaming.Scope

namespace PredicateLogic

/-!
### Renaming

Every occurrence takes the name that its binder was given, and the names that were written are
taken from then on.  The only thing that can go wrong is that no letter is left.  The error is then
the scope at the place where a fresh name was needed, with the quantifiers around that place still
entered.
-/

/-- The occurrence under the name that stands for its own. -/
def Variable.renameIn (scope : Scope) (v : Variable) : Variable :=
  { v with name := scope.nameFor v.name }

/-- The names of the variables and constants in terms, from left to right. -/
def occurrenceNames (terms : List Term) : List String :=
  (terms.flatMap Term.occurrences).map Variable.name

namespace Formula

/-- The formula with clashing bound variables renamed, and the scope behind it. -/
def renameIn (scope : Scope) : Formula → Except Scope (Formula × Scope)
  | .empty span => .ok (.empty span, scope)
  | .term t =>
      .ok (.term (t.mapOccurrences (Variable.renameIn scope)), scope.takeAll (occurrenceNames [t]))
  | .literal value span => .ok (.literal value span, scope)
  | .predicate name args span =>
      .ok (.predicate name (args.map (Term.mapOccurrences (Variable.renameIn scope))) span,
        scope.takeAll (occurrenceNames args))
  | .neg argument span => do
      let (argument, after) ← argument.renameIn scope
      return (.neg argument span, after)
  | .binary c left right span => do
      let (left, between) ← left.renameIn scope
      let (right, after) ← right.renameIn between
      return (.binary c left right span, after)
  | .group body span => do
      let (body, after) ← body.renameIn scope
      return (.group body span, after)
  | .quantified q bound body span =>
      match scope.choose bound.name with
      | .error _ => .error scope
      | .ok (name, next) => do
          let shadowed := next.given.lookup bound.name
          let (body, after) ← body.renameIn (next.bindName bound.name name)
          return (.quantified q { bound with name := name } body span,
            after.release bound.name shadowed)

/-- The formula in which no binder has the name of a free variable or of another binder. -/
def rename (f : Formula) : Except NamingError Formula := do
  let scope ← Scope.ofFormula f
  match f.renameIn scope with
  | .error _ => .error .exhausted
  | .ok (renamed, _) => return renamed

end Formula

end PredicateLogic
