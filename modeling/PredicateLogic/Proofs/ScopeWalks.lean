/-
Module: PredicateLogic.Proofs.ScopeWalks
Purpose: What the walks with a stack of bound names find, node by node.
  A walk pushes the name of a quantifier and pops it behind the body, so each walk leaves the stack
  as it found it, whether or not it goes through the whole formula (`seek_balanced`,
  `marking_balanced`).  An operand on the right is therefore walked with the stack that the operand
  on the left was walked with, and the answers obey one equation for each kind of node.
Main exports: ScopeWalk.Balanced, Formula.seek_balanced, Formula.marking_balanced,
  Formula.hasFree_binary, Formula.hasFree_quantified, Formula.mark_binary, Formula.mark_quantified
-/
import PredicateLogic.Formula.FreeVariables

namespace PredicateLogic

/-!
### Walks that leave the stack as it was
-/

namespace ScopeWalk

variable {α β : Type} {walk : ScopeWalk α} {next : α → ScopeWalk β}

/-- Whether a walk leaves every stack as it found it. -/
def Balanced (walk : ScopeWalk α) : Prop := ∀ bound, (walk bound).2 = bound

theorem balanced_pure (answer : α) : Balanced (pure answer) := fun _ => rfl

theorem balanced_get : Balanced get := fun _ => rfl

/-- What follows a balanced walk starts with the same stack. -/
theorem Balanced.bind_apply (balanced : Balanced walk) (bound : List String) :
    (walk >>= next) bound = next (walk bound).1 bound := by
  calc (walk >>= next) bound
      = next (walk bound).1 (walk bound).2 := rfl
    _ = next (walk bound).1 bound := by rw [balanced bound]

theorem Balanced.bind (first : Balanced walk) (rest : ∀ answer, Balanced (next answer)) :
    Balanced (walk >>= next) := by
  intro bound
  rw [first.bind_apply]
  exact rest _ bound

/-- The name of a quantifier is popped where it was pushed. -/
theorem Balanced.inside (balanced : Balanced walk) (name : String) :
    Balanced (ScopeWalk.inside name walk) := by
  intro bound
  calc (ScopeWalk.inside name walk bound).2
      = (walk (bound ++ [name])).2.dropLast := rfl
    _ = (bound ++ [name]).dropLast := by rw [balanced]
    _ = bound := List.dropLast_concat

end ScopeWalk

namespace Formula

open ScopeWalk

variable {name : String} {bound : List String} {left right body : Formula} {span : Span}

/-- The search leaves the stack as it found it, even where it ends early. -/
theorem seek_balanced (name : String) (f : Formula) : Balanced (f.seek name) := by
  induction f with
  | empty span => exact balanced_pure _
  | term t => exact balanced_get.bind fun _ => balanced_pure _
  | literal value span => exact balanced_pure _
  | predicate p args span => exact balanced_get.bind fun _ => balanced_pure _
  | neg argument span ih => exact ih
  | binary c left right span ihLeft ihRight =>
      apply ihLeft.bind
      intro found
      cases found with
      | true => exact balanced_pure _
      | false => exact ihRight
  | group body span ih => exact ih
  | quantified q v body span ih => exact ih.inside v.name

theorem marking_balanced (f : Formula) : Balanced f.marking := by
  induction f with
  | empty span => exact balanced_pure _
  | term t => exact balanced_get.bind fun _ => balanced_pure _
  | literal value span => exact balanced_pure _
  | predicate p args span => exact balanced_get.bind fun _ => balanced_pure _
  | neg argument span ih => exact ih.bind fun _ => balanced_pure _
  | binary c left right span ihLeft ihRight =>
      exact ihLeft.bind fun _ => ihRight.bind fun _ => balanced_pure _
  | group body span ih => exact ih.bind fun _ => balanced_pure _
  | quantified q v body span ih => exact (ih.inside v.name).bind fun _ => balanced_pure _

/-!
### The search, node by node
-/

@[simp] theorem hasFree_empty : (Formula.empty span).hasFree name bound = false := rfl

@[simp] theorem hasFree_term {t : Term} :
    (Formula.term t).hasFree name bound = t.hasFree name bound := rfl

@[simp] theorem hasFree_literal {value : Bool} :
    (Formula.literal value span).hasFree name bound = false := rfl

@[simp] theorem hasFree_predicate {p : String} {args : List Term} :
    (Formula.predicate p args span).hasFree name bound = args.any (Term.hasFree name bound) := rfl

@[simp] theorem hasFree_neg :
    (Formula.neg body span).hasFree name bound = body.hasFree name bound := rfl

@[simp] theorem hasFree_binary {c : Connective} :
    (Formula.binary c left right span).hasFree name bound =
      (left.hasFree name bound || right.hasFree name bound) := by
  rw [hasFree, seek, (seek_balanced name left).bind_apply, ← hasFree]
  cases left.hasFree name bound with
  | true => rfl
  | false => rfl

@[simp] theorem hasFree_group :
    (Formula.group body span).hasFree name bound = body.hasFree name bound := rfl

@[simp] theorem hasFree_quantified {q : Quantifier} {v : Variable} :
    (Formula.quantified q v body span).hasFree name bound =
      body.hasFree name (bound ++ [v.name]) := rfl

/-!
### Marks, node by node
-/

@[simp] theorem mark_empty : (Formula.empty span).mark bound = .empty span := rfl

@[simp] theorem mark_term {t : Term} :
    (Formula.term t).mark bound = .term (t.mapOccurrences (Variable.mark bound)) := rfl

@[simp] theorem mark_literal {value : Bool} :
    (Formula.literal value span).mark bound = .literal value span := rfl

@[simp] theorem mark_predicate {p : String} {args : List Term} :
    (Formula.predicate p args span).mark bound =
      .predicate p (args.map (Term.mapOccurrences (Variable.mark bound))) span := rfl

@[simp] theorem mark_neg : (Formula.neg body span).mark bound = .neg (body.mark bound) span := rfl

@[simp] theorem mark_binary {c : Connective} :
    (Formula.binary c left right span).mark bound =
      .binary c (left.mark bound) (right.mark bound) span := by
  rw [mark, marking, (marking_balanced left).bind_apply, (marking_balanced right).bind_apply]
  rfl

@[simp] theorem mark_group :
    (Formula.group body span).mark bound = .group (body.mark bound) span := rfl

@[simp] theorem mark_quantified {q : Quantifier} {v : Variable} :
    (Formula.quantified q v body span).mark bound =
      .quantified q { v with free := some false } (body.mark (bound ++ [v.name])) span := rfl

end Formula

end PredicateLogic
