/-
Module: PredicateLogic.Proofs.Mentions
Purpose: The variables of a formula in the order in which they are met, at binders and at leaves.
  A binder comes before what it binds, and function symbols and predicates play no part.  The names
  of all variables together are those that the identifiers of the formula list as variables
  (`mem_identifiers_iff`).
Main exports: Mention, Formula.mentions, Formula.leaves, Formula.binders, Formula.names_binders,
  Formula.mem_identifiers_iff
-/
import PredicateLogic.Proofs.BoundNames

namespace PredicateLogic

/-!
### Mentions
-/

/-- A variable where it is met in a formula. -/
inductive Mention where
  /-- The variable of a quantifier. -/
  | binder (bound : Variable)
  /-- An occurrence of a variable or constant. -/
  | leaf (occurrence : Variable)
deriving Repr, DecidableEq

namespace Mention

/-- The variable of a binder. -/
def bound? : Mention → Option Variable
  | .binder v => some v
  | .leaf _ => none

/-- The variable at a leaf. -/
def occurrence? : Mention → Option Variable
  | .binder _ => none
  | .leaf v => some v

/-- The name that is met. -/
def name : Mention → String
  | .binder v => v.name
  | .leaf v => v.name

end Mention

namespace Formula

/-- The variables of a formula from left to right, that of a quantifier before those in its
body. -/
def mentions : Formula → List Mention
  | .empty _ => []
  | .term t => t.occurrences.map .leaf
  | .literal _ _ => []
  | .predicate _ args _ => (args.flatMap Term.occurrences).map .leaf
  | .neg argument _ => argument.mentions
  | .binary _ left right _ => left.mentions ++ right.mentions
  | .group body _ => body.mentions
  | .quantified _ v body _ => .binder v :: body.mentions

/-- The occurrences of variables and constants in a formula, from left to right. -/
def leaves (f : Formula) : List Variable := f.mentions.filterMap Mention.occurrence?

/-- The variables of the quantifiers of a formula, from left to right. -/
def binders (f : Formula) : List Variable := f.mentions.filterMap Mention.bound?

end Formula

/-!
### Leaves and binders, node by node
-/

theorem Mention.occurrences_map_leaf (vs : List Variable) :
    (vs.map Mention.leaf).filterMap Mention.occurrence? = vs := by
  rw [List.filterMap_map]
  exact List.filterMap_some

theorem Mention.bounds_map_leaf (vs : List Variable) :
    (vs.map Mention.leaf).filterMap Mention.bound? = [] := by
  rw [List.filterMap_map, List.filterMap_eq_nil_iff]
  intro v _
  rfl

namespace Formula

section

variable {left right body : Formula} {span : Span}

@[simp] theorem leaves_empty : (Formula.empty span).leaves = [] := rfl

@[simp] theorem leaves_term {t : Term} : (Formula.term t).leaves = t.occurrences :=
  Mention.occurrences_map_leaf _

@[simp] theorem leaves_literal {value : Bool} : (Formula.literal value span).leaves = [] := rfl

@[simp] theorem leaves_predicate {name : String} {args : List Term} :
    (Formula.predicate name args span).leaves = args.flatMap Term.occurrences :=
  Mention.occurrences_map_leaf _

@[simp] theorem leaves_neg : (Formula.neg body span).leaves = body.leaves := rfl

@[simp] theorem leaves_binary {c : Connective} :
    (Formula.binary c left right span).leaves = left.leaves ++ right.leaves :=
  List.filterMap_append

@[simp] theorem leaves_group : (Formula.group body span).leaves = body.leaves := rfl

@[simp] theorem leaves_quantified {q : Quantifier} {v : Variable} :
    (Formula.quantified q v body span).leaves = body.leaves := rfl

@[simp] theorem binders_empty : (Formula.empty span).binders = [] := rfl

@[simp] theorem binders_term {t : Term} : (Formula.term t).binders = [] :=
  Mention.bounds_map_leaf _

@[simp] theorem binders_literal {value : Bool} : (Formula.literal value span).binders = [] := rfl

@[simp] theorem binders_predicate {name : String} {args : List Term} :
    (Formula.predicate name args span).binders = [] :=
  Mention.bounds_map_leaf _

@[simp] theorem binders_neg : (Formula.neg body span).binders = body.binders := rfl

@[simp] theorem binders_binary {c : Connective} :
    (Formula.binary c left right span).binders = left.binders ++ right.binders :=
  List.filterMap_append

@[simp] theorem binders_group : (Formula.group body span).binders = body.binders := rfl

@[simp] theorem binders_quantified {q : Quantifier} {v : Variable} :
    (Formula.quantified q v body span).binders = v :: body.binders := rfl

end

/-!
### Their names
-/

/-- The bound names are the names of the binders. -/
theorem names_binders (f : Formula) : f.binders.map Variable.name = f.boundNames := by
  induction f with
  | term t => simp [boundNames]
  | predicate name args span => simp [boundNames]
  | neg argument span ih => exact ih
  | binary c left right span ihLeft ihRight => simp [boundNames, ihLeft, ihRight]
  | group body span ih => exact ih
  | quantified q v body span ih => simp [boundNames, ih]
  | _ => rfl

/-- A name is listed as a variable when some leaf or binder has it. -/
theorem mem_identifiers_iff {f : Formula} {name : String} :
    (name, Role.var) ∈ f.identifiers ↔ name ∈ f.mentions.map Mention.name := by
  induction f with
  | term t => simp [identifiers, mentions, Term.mem_identifiers_var, Mention.name]
  | predicate p args span =>
      rw [identifiers, Term.mem_flatMap_identifiers_var, mentions, List.map_map, List.mem_map]
      rfl
  | neg argument span ih => exact ih
  | binary c left right span ihLeft ihRight =>
      simp only [identifiers, mentions, List.mem_append, List.map_append, ihLeft, ihRight]
  | group body span ih => exact ih
  | quantified q v body span ih =>
      simp [identifiers, mentions, ih, Mention.name]
  | _ => simp [identifiers, mentions]

/-- The names that are met are those of the leaves and those of the binders. -/
theorem mem_names_mentions {f : Formula} {name : String} :
    name ∈ f.mentions.map Mention.name ↔
      (∃ v ∈ f.leaves, v.name = name) ∨ ∃ v ∈ f.binders, v.name = name := by
  simp only [leaves, binders, List.mem_map, List.mem_filterMap]
  constructor
  · rintro ⟨m, met, named⟩
    cases m with
    | binder v => exact Or.inr ⟨v, ⟨_, met, rfl⟩, named⟩
    | leaf v => exact Or.inl ⟨v, ⟨_, met, rfl⟩, named⟩
  · rintro (⟨v, ⟨m, met, here⟩, named⟩ | ⟨v, ⟨m, met, here⟩, named⟩)
    · cases m with
      | binder w => cases here
      | leaf w =>
          cases here
          exact ⟨_, met, named⟩
    · cases m with
      | binder w =>
          cases here
          exact ⟨_, met, named⟩
      | leaf w => cases here

end Formula

end PredicateLogic
