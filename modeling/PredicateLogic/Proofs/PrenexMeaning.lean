/-
Module: PredicateLogic.Proofs.PrenexMeaning
Purpose: Pulling quantifiers to the left keeps the meaning of a formula.
  A whole row of binders passes over a connective when the other operand leaves none of their names
  free (`bindAll_binary_left`, `bindAll_binary_right`).  For the row of the right operand the other
  side is the body of the left operand, no longer the operand itself; its free names are the
  operand's own and the names of the operand's binders (`leavesFree_iff_matrix`), which is why the
  names bound on both sides have to differ as well.
Main exports: Formula.leavesFree_iff_matrix, Formula.apart_eq_true, Formula.bindAll_binary_left,
  Formula.bindAll_binary_right, Formula.joinBound_equivalent, Formula.pullQuantifiers_equivalent,
  Formula.holds_pullQuantifiers
-/
import PredicateLogic.Formula.Prenex
import PredicateLogic.Proofs.FreeNames

namespace PredicateLogic.Formula

universe u

/-!
### Binders and bodies
-/

/-- The names that the quantifiers at the front of a formula bind, outermost first. -/
def leadingNames (f : Formula) : List String :=
  f.leadingBinders.map fun b => b.bound.name

/-- A formula leaves those names free that its body leaves free and its leading binders do not
bind. -/
theorem leavesFree_iff_matrix {f : Formula} {name : String} :
    f.LeavesFree name ↔ name ∉ f.leadingNames ∧ f.matrix.LeavesFree name := by
  induction f with
  | quantified q v body span ih =>
      simp only [leavesFree_quantified, leadingNames, leadingBinders, matrix, List.map_cons,
        List.mem_cons, not_or]
      rw [ih, leadingNames, and_assoc]
  | _ => simp [leadingNames, leadingBinders, matrix]

/-- What keeps the binders of two operands apart: they share no name, and neither operand leaves
free a name that the other one's leading binders bind. -/
theorem apart_eq_true {left right : Formula} :
    apart left right = true ↔
      (∀ x ∈ right.leadingNames, x ∉ left.leadingNames) ∧
      (∀ x ∈ right.leadingNames, ¬ left.LeavesFree x) ∧
      (∀ x ∈ left.leadingNames, ¬ right.LeavesFree x) := by
  simp [apart, leadingNames, LeavesFree, and_assoc]

/-- Splitting a formula into its leading binders and its body keeps the meaning. -/
theorem bindAll_matrix_equivalent (f : Formula) :
    Equivalent.{u} (bindAll f.leadingBinders f.matrix) f :=
  (bindAll_leadingBinders_matrix f).equivalent

theorem bindAll_congr {f g : Formula} (bs : List Binder) (same : Equivalent.{u} f g) :
    Equivalent.{u} (bindAll bs f) (bindAll bs g) := by
  induction bs with
  | nil => exact same
  | cons b bs ih => exact ih.quantified b.quantifier b.bound _ _

/-- Binders in front of the left operand bind the whole just as well, when the right operand leaves
none of their names free. -/
theorem bindAll_binary_left {c : Connective} (monotone : c ≠ .implication) {bs : List Binder}
    {left right : Formula} (unused : ∀ b ∈ bs, ¬ right.LeavesFree b.bound.name)
    (span span' : Span) :
    Equivalent.{u} (bindAll bs (.binary c left right span))
      (.binary c (bindAll bs left) right span') := by
  induction bs with
  | nil => exact Equivalent.rfl
  | cons b bs ih =>
      intro M ρ
      have inner : ∀ d,
          (bindAll bs (.binary c left right span)).Holds M (Function.update ρ b.bound.name d) ↔
            c.Join ((bindAll bs left).Holds M (Function.update ρ b.bound.name d))
              (right.Holds M ρ) := by
        intro d
        apply (ih (fun b' member => unused b' (List.mem_cons_of_mem b member)) M _).trans
        apply c.join_congr Iff.rfl
        exact holds_update (unused b List.mem_cons_self) ρ d
      exact (b.quantifier.over_congr inner).trans
        (b.quantifier.over_join_left monotone _ (right.Holds M ρ))

/-- Binders in front of the right operand bind the whole just as well, when the left operand leaves
none of their names free. -/
theorem bindAll_binary_right {c : Connective} (monotone : c ≠ .implication) {bs : List Binder}
    {left right : Formula} (unused : ∀ b ∈ bs, ¬ left.LeavesFree b.bound.name)
    (span span' : Span) :
    Equivalent.{u} (bindAll bs (.binary c left right span))
      (.binary c left (bindAll bs right) span') := by
  induction bs with
  | nil => exact Equivalent.rfl
  | cons b bs ih =>
      intro M ρ
      have inner : ∀ d,
          (bindAll bs (.binary c left right span)).Holds M (Function.update ρ b.bound.name d) ↔
            c.Join (left.Holds M ρ)
              ((bindAll bs right).Holds M (Function.update ρ b.bound.name d)) := by
        intro d
        apply (ih (fun b' member => unused b' (List.mem_cons_of_mem b member)) M _).trans
        apply c.join_congr _ Iff.rfl
        exact holds_update (unused b List.mem_cons_self) ρ d
      exact (b.quantifier.over_congr inner).trans
        (b.quantifier.over_join_right monotone (left.Holds M ρ) _)

/-!
### Parentheses
-/

theorem trimLeft_equivalent (f : Formula) : Equivalent.{u} f.trimLeft f := by
  unfold trimLeft
  split
  · exact Equivalent.rfl
  · exact (Equivalent.group _ _).symm
  · exact Equivalent.group _ _
  · exact Equivalent.rfl

theorem trimRight_equivalent (f : Formula) : Equivalent.{u} f.trimRight f := by
  unfold trimRight
  split
  · exact Equivalent.rfl
  · exact (Equivalent.group _ _).symm
  · exact Equivalent.group _ _
  · exact Equivalent.rfl

/-!
### Pulling
-/

/-- Where the binders may be pulled, the operands mean the same with their binders in front. -/
theorem joinBound_equivalent {c : Connective} {left right : Formula}
    (allowed : pulls c left right = true) (keepLeft keepRight : Bool) (span : Span) :
    Equivalent.{u} (joinBound c keepLeft keepRight left right) (.binary c left right span) := by
  simp only [pulls, Bool.and_eq_true, bne_iff_ne, ne_eq] at allowed
  obtain ⟨⟨monotone, -⟩, separate⟩ := allowed
  obtain ⟨distinct, unusedLeft, unusedRight⟩ := apart_eq_true.1 separate
  have bodies : Equivalent.{u}
      (.group (.binary c (if keepLeft then left.matrix else left.matrix.trimLeft)
        (if keepRight then right.matrix else right.matrix.trimRight) .unknown) .unknown)
      (.binary c left.matrix right.matrix .unknown) := by
    refine (Equivalent.group _ _).trans (Equivalent.binary c ?_ ?_ _ _)
    · cases keepLeft
      · exact trimLeft_equivalent left.matrix
      · exact Equivalent.rfl
    · cases keepRight
      · exact trimRight_equivalent right.matrix
      · exact Equivalent.rfl
  -- The binders of the right operand come first to rest, so their other side is a bare body.
  have unusedBody : ∀ b ∈ right.leadingBinders, ¬ left.matrix.LeavesFree b.bound.name := by
    intro b member free
    have bound : b.bound.name ∈ right.leadingNames := List.mem_map_of_mem member
    exact unusedLeft _ bound (leavesFree_iff_matrix.2 ⟨distinct _ bound, free⟩)
  have rightBound : Equivalent.{u}
      (bindAll right.leadingBinders (.binary c left.matrix right.matrix .unknown))
      (.binary c left.matrix right .unknown) :=
    (bindAll_binary_right monotone unusedBody .unknown .unknown).trans
      (Equivalent.binary c Equivalent.rfl (bindAll_matrix_equivalent right) _ _)
  have unusedOperand : ∀ b ∈ left.leadingBinders, ¬ right.LeavesFree b.bound.name := by
    intro b member
    exact unusedRight _ (List.mem_map_of_mem member)
  have leftBound : Equivalent.{u}
      (bindAll left.leadingBinders (.binary c left.matrix right .unknown))
      (.binary c left right span) :=
    (bindAll_binary_left monotone unusedOperand .unknown span).trans
      (Equivalent.binary c (bindAll_matrix_equivalent left) Equivalent.rfl _ _)
  have split : joinBound c keepLeft keepRight left right =
      bindAll left.leadingBinders (bindAll right.leadingBinders
        (.group (.binary c (if keepLeft then left.matrix else left.matrix.trimLeft)
          (if keepRight then right.matrix else right.matrix.trimRight) .unknown) .unknown)) :=
    List.foldr_append
  rw [split]
  exact (bindAll_congr _ ((bindAll_congr _ bodies).trans rightBound)).trans leftBound

/-- Pulling quantifiers to the left gives an equivalent formula. -/
theorem pullQuantifiers_equivalent (f : Formula) : Equivalent.{u} f.pullQuantifiers f := by
  induction f with
  | neg argument span ih => exact ih.neg span span
  | binary c left right span ihLeft ihRight =>
      have operands := Equivalent.binary c ihLeft ihRight span span
      simp only [pullQuantifiers]
      split
      case isTrue allowed =>
        exact (joinBound_equivalent allowed left.isGroup right.isGroup span).trans operands
      case isFalse => exact operands
  | group body span ih =>
      have whole : Equivalent.{u} body.pullQuantifiers (.group body span) :=
        ih.trans (Equivalent.group body span).symm
      simp only [pullQuantifiers]
      split
      · exact whole
      · exact (Equivalent.group _ _).trans whole
  | quantified q v body span ih => exact ih.quantified q v span span
  | _ => exact Equivalent.rfl

/-- A formula is true in a structure under a valuation exactly when it is true there with its
quantifiers pulled to the left, whatever binders are nested, repeated or shadowed in it. -/
theorem holds_pullQuantifiers (M : Structure.{u}) (ρ : Valuation M) (f : Formula) :
    f.pullQuantifiers.Holds M ρ ↔ f.Holds M ρ :=
  pullQuantifiers_equivalent f M ρ

end PredicateLogic.Formula
