/-
Module: PredicateLogic.Formula.Identifiers
Purpose: The names of a formula and what each of them names.
Main exports:
  Role, NameTable, NameTable.insert, Formula.identifiers, Formula.nameTable
-/
import PredicateLogic.Formula.Basic
import PredicateLogic.Formula.NamingError

namespace PredicateLogic

/-!
### Name tables

A name table lists names in the order in which they were first seen, each with the one role it
has.  Predicate symbols live in a name space of their own and are not listed.
-/

/-- What a name names. -/
inductive Role where
  | var
  | function
deriving Repr, DecidableEq

/-- The word for a role. -/
def Role.label : Role → String
  | .var => "VariableOrConstant"
  | .function => "FunctionExpression"

/-- Names with their roles, in the order in which they were first seen. -/
abbrev NameTable := List (String × Role)

namespace NameTable

/-- Records that a name was seen in a role.  A name keeps the place and the role it was first seen
with, and another role is refused. -/
def insert (table : NameTable) (name : String) (role : Role) : Except NamingError NameTable :=
  match table.lookup name with
  | none => .ok (table ++ [(name, role)])
  | some seen => if seen = role then .ok table else .error (.conflict name)

/-- Records names one after the other. -/
def insertAll (table : NameTable) : List (String × Role) → Except NamingError NameTable
  | [] => .ok table
  | (name, role) :: rest => do
      let next ← table.insert name role
      next.insertAll rest

/-- The names of a table, in order. -/
def domain (table : NameTable) : List String :=
  table.map Prod.fst

/-- The variables and constants of a table, in order. -/
def individuals (table : NameTable) : List String :=
  (table.filter fun entry => entry.2 = .var).map Prod.fst

end NameTable

/-!
### The names of a formula

The identifiers of a formula are read from left to right.  A function symbol comes before its
arguments, and the variable of a quantifier before the names in its body.
-/

mutual

/-- The identifiers of a term, from left to right. -/
def Term.identifiers : Term → List (String × Role)
  | .var v => [(v.name, .var)]
  | .app name args _ => (name, .function) :: Term.identifiersList args

/-- The identifiers of terms, from left to right. -/
def Term.identifiersList : List Term → List (String × Role)
  | [] => []
  | t :: ts => t.identifiers ++ Term.identifiersList ts

end

@[simp] theorem Term.identifiersList_eq_flatMap (ts : List Term) :
    Term.identifiersList ts = ts.flatMap Term.identifiers := by
  induction ts with
  | nil => rfl
  | cons t ts ih => simp [Term.identifiersList, ih]

namespace Formula

/-- The identifiers of a formula, from left to right. -/
def identifiers : Formula → List (String × Role)
  | .empty _ => []
  | .term t => t.identifiers
  | .literal _ _ => []
  | .predicate _ args _ => args.flatMap Term.identifiers
  | .neg argument _ => argument.identifiers
  | .binary _ left right _ => left.identifiers ++ right.identifiers
  | .group body _ => body.identifiers
  | .quantified _ bound body _ => (bound.name, .var) :: body.identifiers

/-- The name table of a formula.  A name that is seen in two roles is an error, found where its
second role is first seen. -/
def nameTable (f : Formula) : Except NamingError NameTable :=
  NameTable.insertAll [] f.identifiers

end Formula

end PredicateLogic
