/-
Module: PredicateLogic.Proofs.MarkedLeaves
Purpose: The two walks along the scopes of a formula agree.
  One looks for a name and stops where it finds it free, the other marks every leaf and goes through
  the whole formula.  Whatever names count as bound from the start, the first finds a name exactly
  when the second marks a leaf of that name as free (`hasFree_iff_marked`).  The second leaves no
  variable without a mark and changes nothing but marks (`unmarked_mark`).
Main exports: Formula.unmarked, Formula.hasFree_iff_marked, Formula.unmarked_mark,
  Formula.mark_locates_free
-/
import PredicateLogic.Proofs.MarkedOccurrences
import PredicateLogic.Proofs.Mentions

namespace PredicateLogic

/-!
### Formulas without marks
-/

/-- The variable without its mark. -/
def Variable.unmarked (v : Variable) : Variable :=
  { v with free := none }

/-- The formula without the marks of its leaves and binders. -/
def Formula.unmarked : Formula → Formula
  | .empty span => .empty span
  | .term t => .term (t.mapOccurrences Variable.unmarked)
  | .literal value span => .literal value span
  | .predicate name args span =>
      .predicate name (args.map (Term.mapOccurrences Variable.unmarked)) span
  | .neg argument span => .neg argument.unmarked span
  | .binary c left right span => .binary c left.unmarked right.unmarked span
  | .group body span => .group body.unmarked span
  | .quantified q v body span => .quantified q v.unmarked body.unmarked span

/-- In a term only the marks are set. -/
theorem Term.unmarked_mark (bound : List String) (t : Term) :
    (t.mapOccurrences (Variable.mark bound)).mapOccurrences Variable.unmarked =
      t.mapOccurrences Variable.unmarked :=
  t.mapOccurrences_mapOccurrences _ _

/-- A name is found in a term when an occurrence of it is marked as free. -/
theorem Term.hasFree_iff_marked {name : String} {bound : List String} {t : Term} :
    t.hasFree name bound = true ↔
      ∃ v ∈ t.occurrences.map (Variable.mark bound), v.name = name ∧ v.free = some true := by
  simp [Term.hasFree, Variable.mark]

namespace Formula

variable {f : Formula} {bound : List String} {name : String}

/-- Marking changes nothing but marks. -/
theorem unmarked_mark (f : Formula) (bound : List String) :
    (f.mark bound).unmarked = f.unmarked := by
  induction f generalizing bound with
  | term t => exact congrArg Formula.term (t.unmarked_mark bound)
  | predicate p args span =>
      simp only [mark_predicate, unmarked, List.map_map, Function.comp_def, Term.unmarked_mark]
  | neg argument span ih => exact congrArg (Formula.neg · span) (ih bound)
  | binary c left right span ihLeft ihRight => simp only [mark_binary, unmarked, ihLeft, ihRight]
  | group body span ih => exact congrArg (Formula.group · span) (ih bound)
  | quantified q v body span ih =>
      exact congrArg (Formula.quantified q v.unmarked · span) (ih (bound ++ [v.name]))
  | _ => rfl

/-!
### Leaves and binders of a marked formula
-/

/-- The leaves of marked terms are their leaves, marked. -/
theorem leaves_predicate_mark (args : List Term) :
    (args.map (Term.mapOccurrences (Variable.mark bound))).flatMap Term.occurrences =
      (args.flatMap Term.occurrences).map (Variable.mark bound) := by
  simp only [List.flatMap_map, List.map_flatMap, Term.occurrences_mapOccurrences]

/-- No leaf is left without a mark. -/
theorem marked_of_mem_leaves {v : Variable} (leaf : v ∈ (f.mark bound).leaves) :
    ∃ free, v.free = some free := by
  induction f generalizing bound with
  | empty span => cases leaf
  | term t =>
      rw [mark_term, leaves_term, Term.occurrences_mapOccurrences] at leaf
      obtain ⟨w, -, rfl⟩ := List.mem_map.1 leaf
      exact ⟨w.isFree bound, rfl⟩
  | literal value span => cases leaf
  | predicate p args span =>
      rw [mark_predicate, leaves_predicate, leaves_predicate_mark] at leaf
      obtain ⟨w, -, rfl⟩ := List.mem_map.1 leaf
      exact ⟨w.isFree bound, rfl⟩
  | neg argument span ih => exact ih leaf
  | binary c left right span ihLeft ihRight =>
      rw [mark_binary, leaves_binary, List.mem_append] at leaf
      exact leaf.elim ihLeft ihRight
  | group body span ih => exact ih leaf
  | quantified q w body span ih => exact ih leaf

/-- Every binder is marked as bound. -/
theorem bound_of_mem_binders {v : Variable} (binder : v ∈ (f.mark bound).binders) :
    v.free = some false := by
  induction f generalizing bound with
  | empty span => cases binder
  | term t =>
      rw [mark_term, binders_term] at binder
      cases binder
  | literal value span => cases binder
  | predicate p args span =>
      rw [mark_predicate, binders_predicate] at binder
      cases binder
  | neg argument span ih => exact ih binder
  | binary c left right span ihLeft ihRight =>
      rw [mark_binary, binders_binary, List.mem_append] at binder
      exact binder.elim ihLeft ihRight
  | group body span ih => exact ih binder
  | quantified q w body span ih =>
      rw [mark_quantified, binders_quantified, List.mem_cons] at binder
      rcases binder with rfl | inside
      · rfl
      · exact ih inside

/-- A name is found exactly when some leaf of that name is marked as free, where both walks start
with the same stack: they push and pop the same names around every leaf. -/
theorem hasFree_iff_marked :
    f.hasFree name bound = true ↔
      ∃ v ∈ (f.mark bound).leaves, v.name = name ∧ v.free = some true := by
  induction f generalizing bound with
  | empty span => simp
  | term t =>
      rw [hasFree_term, mark_term, leaves_term, Term.occurrences_mapOccurrences]
      exact Term.hasFree_iff_marked
  | literal value span => simp
  | predicate p args span =>
      simp only [hasFree_predicate, mark_predicate, leaves_predicate, List.any_eq_true,
        Term.hasFree_iff_marked, List.flatMap_map, List.mem_flatMap,
        Term.occurrences_mapOccurrences]
      constructor
      · rintro ⟨t, member, v, leaf, marked⟩
        exact ⟨v, ⟨t, member, leaf⟩, marked⟩
      · rintro ⟨v, ⟨t, member, leaf⟩, marked⟩
        exact ⟨t, member, v, leaf, marked⟩
  | neg argument span ih => exact ih
  | binary c left right span ihLeft ihRight =>
      simp only [hasFree_binary, mark_binary, leaves_binary, Bool.or_eq_true, ihLeft, ihRight,
        List.mem_append, or_and_right, exists_or]
  | group body span ih => exact ih
  | quantified q v body span ih => exact ih

/-!
### The agreement
-/

/-- The search and the marks agree, whatever names count as bound from the start: a name is found
exactly when a leaf of that name is marked as free.  Every leaf is marked, every binder is marked as
bound, the marks depend on which names count as bound and not on their order or number, and nothing
but marks is changed.  A formula that has a name table has as its free variables the names of the
leaves that are marked as free when no name counts as bound. -/
theorem mark_locates_free (f : Formula) (bound : List String) :
    (∀ name, f.hasFree name bound = true ↔
        ∃ v ∈ (f.mark bound).leaves, v.name = name ∧ v.free = some true) ∧
      (∀ v ∈ (f.mark bound).leaves, ∃ free, v.free = some free) ∧
      (∀ v ∈ (f.mark bound).binders, v.free = some false) ∧
      (∀ bound', (∀ x, x ∈ bound ↔ x ∈ bound') → f.mark bound = f.mark bound') ∧
      (f.mark bound).unmarked = f.unmarked ∧
      ∀ table, f.nameTable = .ok table →
        ∃ names, f.freeVariables = .ok names ∧
          ∀ x, x ∈ names ↔ ∃ v ∈ (f.mark []).leaves, v.name = x ∧ v.free = some true := by
  refine ⟨?found, ?leaves, ?binders, ?names, f.unmarked_mark bound, ?answer⟩
  case found =>
    intro name
    exact hasFree_iff_marked
  case leaves =>
    intro v leaf
    exact marked_of_mem_leaves leaf
  case binders =>
    intro v binder
    exact bound_of_mem_binders binder
  case names =>
    intro bound' same
    exact mark_congr fun x _ => same x
  case answer =>
    intro table listed
    obtain ⟨names, answer⟩ := exists_freeVariables (nameTable_eq_ok listed).1
    refine ⟨names, answer, ?_⟩
    intro x
    rw [(freeVariables_eq_ok answer).2]
    exact hasFree_iff_marked

/-- The formula `A.x (P(x, y) | E.x Q(x)) & R(x)`: the name `x` is bound twice, and free behind its
quantifiers. -/
def freeAgain : Formula :=
  .binary .conjunction
    (.quantified .universal { name := "x" }
      (.group
        (.binary .disjunction (.predicate "P" [.var { name := "x" }, .var { name := "y" }] .unknown)
          (.quantified .existential { name := "x" }
            (.predicate "Q" [.var { name := "x" }] .unknown) .unknown) .unknown) .unknown)
      .unknown)
    (.predicate "R" [.var { name := "x" }] .unknown) .unknown

/-- Below a stack that holds `y` twice only the last leaf is free. -/
theorem mark_locates_free_again :
    (freeAgain.hasFree "x" ["y", "y"] = true ∧
        ∃ v ∈ (freeAgain.mark ["y", "y"]).leaves, v.name = "x" ∧ v.free = some true) ∧
      ({ name := "y", free := some false } ∈ (freeAgain.mark ["y", "y"]).leaves ∧
        ∃ free, some false = some free) ∧
      (∃ v, v ∈ (freeAgain.mark ["y", "y"]).binders ∧ v.name = "x" ∧ v.free = some false) ∧
      ((∀ x, x ∈ ["y", "y"] ↔ x ∈ ["y"]) ∧
        freeAgain.mark ["y", "y"] = freeAgain.mark ["y"]) ∧
      freeAgain.nameTable = .ok [("x", .var), ("y", .var)] ∧
      ∃ names, freeAgain.freeVariables = .ok names ∧
        ∀ x, x ∈ names ↔
          ∃ v ∈ (freeAgain.mark []).leaves, v.name = x ∧ v.free = some true := by
  obtain ⟨found, leaves, binders, names, -, answer⟩ := mark_locates_free freeAgain ["y", "y"]
  have free : freeAgain.hasFree "x" ["y", "y"] = true := by decide +kernel
  have leaf : ({ name := "y", free := some false } : Variable) ∈
      (freeAgain.mark ["y", "y"]).leaves := by
    decide +kernel
  have binder : ({ name := "x", free := some false } : Variable) ∈
      (freeAgain.mark ["y", "y"]).binders := by
    decide +kernel
  have same : ∀ x, x ∈ ["y", "y"] ↔ x ∈ ["y"] := by simp
  have listed : freeAgain.nameTable = .ok [("x", .var), ("y", .var)] := by decide +kernel
  exact ⟨⟨free, (found "x").1 free⟩, ⟨leaf, leaves _ leaf⟩,
    ⟨_, binder, rfl, binders _ binder⟩, ⟨same, names ["y"] same⟩, listed, answer _ listed⟩

end Formula

end PredicateLogic
