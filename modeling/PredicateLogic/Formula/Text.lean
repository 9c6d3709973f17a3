/-
Module: PredicateLogic.Formula.Text
Purpose: The canonical text of terms and formulas.
Main exports:
  Term.text, Formula.text
-/
import PredicateLogic.Formula.Basic
import PredicateLogic.Text.Separated

namespace PredicateLogic

open Text

/-!
### Printing

Names are written as they are, arguments in parentheses and separated by commas, connectives
between single blanks, negation directly in front of its argument, and a quantifier directly in
front of its variable.  Parentheses are written exactly where the tree has a group; printing adds
none of its own.
-/

mutual

/-- The canonical text of a term. -/
def Term.text : Term → String
  | .var v => v.name
  | .app name args _ => name ++ "(" ++ commaSeparated (Term.texts args) ++ ")"

/-- The canonical texts of terms. -/
def Term.texts : List Term → List String
  | [] => []
  | t :: ts => t.text :: Term.texts ts

end

@[simp] theorem Term.texts_eq_map (ts : List Term) : Term.texts ts = ts.map Term.text := by
  induction ts with
  | nil => rfl
  | cons t ts ih => simp [Term.texts, ih]

namespace Formula

/-- The written form of a truth value. -/
def literalText (value : Bool) : String :=
  if value then "True" else "False"

/-- The canonical text of a formula. -/
def text : Formula → String
  | .empty _ => ""
  | .term t => t.text
  | .literal value _ => literalText value
  | .predicate name [] _ => name
  | .predicate name args _ => name ++ "(" ++ commaSeparated (args.map Term.text) ++ ")"
  | .neg argument _ => Operator.negation.symbol ++ argument.text
  | .binary c left right _ => left.text ++ " " ++ c.symbol ++ " " ++ right.text
  | .group body _ => "(" ++ body.text ++ ")"
  | .quantified q bound body _ => q.symbol ++ bound.name ++ " " ++ body.text

end Formula

end PredicateLogic
