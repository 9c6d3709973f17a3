/-
Module: PredicateLogic.Proofs.FreeNames
Purpose: The names that a formula leaves free, node by node, and the fact that the truth of a
  formula depends on their values alone.  The walk that looks for a free occurrence carries a list
  of names that count as bound; `hasFree_iff_leavesFree` says that this list only takes its names
  away from the answer, so that everything else can be said with the empty list.
Main exports: Formula.LeavesFree, Formula.hasFree_iff_leavesFree, Formula.leavesFree_quantified,
  Formula.holds_congr, Formula.holds_update
-/
import PredicateLogic.Proofs.ScopeWalks
import PredicateLogic.Proofs.Semantics

namespace PredicateLogic

universe u

/-- An occurrence is free when none of the bound names is its own. -/
theorem Variable.isFree_eq_true {bound : List String} {v : Variable} :
    v.isFree bound = true ↔ v.name ∉ bound := by
  simp [isFree]

/-- A name is found in a term when it occurs there and does not count as bound. -/
theorem Term.hasFree_eq_true {name : String} {bound : List String} {t : Term} :
    t.hasFree name bound = true ↔ name ∉ bound ∧ ∃ v ∈ t.occurrences, v.name = name := by
  simp only [hasFree, List.any_eq_true, Bool.and_eq_true, beq_iff_eq, Variable.isFree_eq_true]
  constructor
  · rintro ⟨v, occurs, rfl, unbound⟩
    exact ⟨unbound, v, occurs, rfl⟩
  · rintro ⟨unbound, v, occurs, rfl⟩
    exact ⟨v, occurs, rfl, unbound⟩

namespace Formula

/-- Whether a name occurs in a formula outside every quantifier that binds it. -/
def LeavesFree (f : Formula) (name : String) : Prop := f.hasFree name [] = true

instance (f : Formula) (name : String) : Decidable (f.LeavesFree name) :=
  inferInstanceAs (Decidable (_ = true))

/-- Names that count as bound from the start are not found, and all others are found as they are
without them. -/
theorem hasFree_iff_leavesFree {f : Formula} {name : String} {bound : List String} :
    f.hasFree name bound = true ↔ name ∉ bound ∧ f.LeavesFree name := by
  induction f generalizing bound with
  | empty span => simp [LeavesFree]
  | term t => simp [LeavesFree, Term.hasFree_eq_true]
  | literal value span => simp [LeavesFree]
  | predicate p args span =>
      simp only [hasFree_predicate, LeavesFree, List.any_eq_true, Term.hasFree_eq_true]
      constructor
      · rintro ⟨t, member, unbound, occurs⟩
        exact ⟨unbound, t, member, List.not_mem_nil, occurs⟩
      · rintro ⟨unbound, t, member, -, occurs⟩
        exact ⟨t, member, unbound, occurs⟩
  | neg argument span ih => exact ih
  | binary c left right span ihLeft ihRight =>
      simp only [hasFree_binary, LeavesFree, Bool.or_eq_true]
      rw [ihLeft, ihRight, ← and_or_left]
      rfl
  | group body span ih => exact ih
  | quantified q v body span ih =>
      rw [LeavesFree, hasFree_quantified, hasFree_quantified, ih, ih]
      simp only [List.mem_append, List.not_mem_nil, false_or, not_or, and_assoc]

/-!
### Node by node
-/

variable {name : String} {left right body : Formula} {span : Span}

@[simp] theorem leavesFree_empty : (Formula.empty span).LeavesFree name ↔ False :=
  iff_of_false Bool.false_ne_true id

@[simp] theorem leavesFree_term {t : Term} :
    (Formula.term t).LeavesFree name ↔ ∃ v ∈ t.occurrences, v.name = name := by
  simp [LeavesFree, Term.hasFree_eq_true]

@[simp] theorem leavesFree_literal {value : Bool} :
    (Formula.literal value span).LeavesFree name ↔ False :=
  iff_of_false Bool.false_ne_true id

@[simp] theorem leavesFree_predicate {p : String} {args : List Term} :
    (Formula.predicate p args span).LeavesFree name ↔
      ∃ t ∈ args, ∃ v ∈ t.occurrences, v.name = name := by
  simp [LeavesFree, Term.hasFree_eq_true]

@[simp] theorem leavesFree_neg : (Formula.neg body span).LeavesFree name ↔ body.LeavesFree name :=
  Iff.rfl

@[simp] theorem leavesFree_binary {c : Connective} :
    (Formula.binary c left right span).LeavesFree name ↔
      left.LeavesFree name ∨ right.LeavesFree name := by
  rw [LeavesFree, hasFree_binary, Bool.or_eq_true]
  rfl

@[simp] theorem leavesFree_group :
    (Formula.group body span).LeavesFree name ↔ body.LeavesFree name :=
  Iff.rfl

/-- A quantifier binds its own name and no other. -/
@[simp] theorem leavesFree_quantified {q : Quantifier} {v : Variable} :
    (Formula.quantified q v body span).LeavesFree name ↔ name ≠ v.name ∧ body.LeavesFree name := by
  have inner : (Formula.quantified q v body span).LeavesFree name ↔
      body.hasFree name [v.name] = true := Iff.rfl
  rw [inner, hasFree_iff_leavesFree, List.mem_singleton]

/-!
### Truth depends on the free names alone
-/

/-- Two valuations that agree on the free names of a formula give it the same truth value. -/
theorem holds_congr {M : Structure.{u}} {ρ σ : Valuation M} {f : Formula}
    (agree : ∀ x, f.LeavesFree x → ρ x = σ x) : f.Holds M ρ ↔ f.Holds M σ := by
  induction f generalizing ρ σ with
  | empty span => exact Iff.rfl
  | term t =>
      have same : t.value M ρ = t.value M σ := by
        apply Term.value_congr
        intro v occurs
        exact agree v.name (leavesFree_term.2 ⟨v, occurs, rfl⟩)
      simp only [Holds, same]
  | literal value span => exact Iff.rfl
  | predicate p args span =>
      have same : args.map (Term.value M ρ) = args.map (Term.value M σ) := by
        apply List.map_congr_left
        intro t member
        apply Term.value_congr
        intro v occurs
        exact agree v.name (leavesFree_predicate.2 ⟨t, member, v, occurs, rfl⟩)
      simp only [Holds, same]
  | neg argument span ih => exact not_congr (ih agree)
  | binary c left right span ihLeft ihRight =>
      apply c.join_congr
      · exact ihLeft fun x free => agree x (leavesFree_binary.2 (Or.inl free))
      · exact ihRight fun x free => agree x (leavesFree_binary.2 (Or.inr free))
  | group body span ih => exact ih agree
  | quantified q v body span ih =>
      apply q.over_congr
      intro d
      apply ih
      intro x free
      by_cases own : x = v.name
      · subst own
        rw [Function.update_self, Function.update_self]
      · rw [Function.update_of_ne own, Function.update_of_ne own]
        exact agree x (leavesFree_quantified.2 ⟨own, free⟩)

/-- Another value for a name that is not free changes nothing. -/
theorem holds_update {M : Structure.{u}} {f : Formula} {name : String}
    (unused : ¬ f.LeavesFree name) (ρ : Valuation M) (d : M.Domain) :
    f.Holds M (Function.update ρ name d) ↔ f.Holds M ρ := by
  apply holds_congr
  intro x free
  apply Function.update_of_ne
  rintro rfl
  exact unused free

end Formula

end PredicateLogic
