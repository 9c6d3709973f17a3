/-
Module: PredicateLogic.Term.Occurrences
Purpose: The occurrences of variables and constants in a term.
Main exports:
  Term.occurrences, Term.mapOccurrences
-/
import PredicateLogic.Term.Basic

namespace PredicateLogic

/-!
### Occurrences in a term

Much that happens to a term happens to its variables alone: they are listed from left to right, and
changed one by one while the function symbols around them stay.
-/

mutual

/-- The occurrences of variables and constants in a term, from left to right. -/
def Term.occurrences : Term → List Variable
  | .var v => [v]
  | .app _ args _ => Term.occurrencesList args

/-- The occurrences of variables and constants in terms, from left to right. -/
def Term.occurrencesList : List Term → List Variable
  | [] => []
  | t :: ts => t.occurrences ++ Term.occurrencesList ts

end

@[simp] theorem Term.occurrencesList_eq_flatMap (ts : List Term) :
    Term.occurrencesList ts = ts.flatMap Term.occurrences := by
  induction ts with
  | nil => rfl
  | cons t ts ih => simp [Term.occurrencesList, ih]

mutual

/-- The term with every occurrence of a variable or constant changed. -/
def Term.mapOccurrences (change : Variable → Variable) : Term → Term
  | .var v => .var (change v)
  | .app name args span => .app name (Term.mapOccurrencesList change args) span

/-- The terms with every occurrence of a variable or constant changed. -/
def Term.mapOccurrencesList (change : Variable → Variable) : List Term → List Term
  | [] => []
  | t :: ts => t.mapOccurrences change :: Term.mapOccurrencesList change ts

end

@[simp] theorem Term.mapOccurrencesList_eq_map (change : Variable → Variable) (ts : List Term) :
    Term.mapOccurrencesList change ts = ts.map (Term.mapOccurrences change) := by
  induction ts with
  | nil => rfl
  | cons t ts ih => simp [Term.mapOccurrencesList, ih]

/-- Changing the variables of a term changes the list of them one by one. -/
theorem Term.occurrences_mapOccurrences (change : Variable → Variable) (t : Term) :
    (t.mapOccurrences change).occurrences = t.occurrences.map change := by
  induction t with
  | var v => rfl
  | app name args span ih =>
      simp only [mapOccurrences, occurrences, mapOccurrencesList_eq_map, occurrencesList_eq_flatMap,
        List.map_flatMap, List.flatMap_map]
      rw [List.flatMap_def, List.flatMap_def, List.map_congr_left ih]

end PredicateLogic
