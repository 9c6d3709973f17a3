/-
Module: PredicateLogic.Proofs.CollectedNames
Purpose: The names in a formula, whatever is done to its negations, connectives and quantifiers.
  Passing negations inward and writing out implications keep what does not depend on negations, on
  which connective joins two operands and on which quantifier binds (`Unsigned`).  Pulling
  quantifiers keeps, up to their order, names that are collected node by node (`Collects`), and it
  keeps the names that are left free.
Main exports: Formula.Unsigned, Formula.Unsigned.negate, Formula.Unsigned.negationNormal,
  Formula.Unsigned.implicationFree, Formula.Collects, Formula.Collects.pullQuantifiers,
  Formula.leavesFree_pullQuantifiers
-/
import PredicateLogic.Proofs.BoundNames
import PredicateLogic.Proofs.ImplicationElimination
import PredicateLogic.Proofs.NegationNormalForm
import PredicateLogic.Proofs.PrenexMeaning
import PredicateLogic.Proofs.PulledNodes

namespace PredicateLogic.Formula

variable {α : Type} {f : Formula} {c : Connective} {name : String}

/-!
### What no sign changes
-/

/-- A value of formulas in which no negation shows, and neither does the choice of a connective or
of a quantifier. -/
structure Unsigned (value : Formula → α) : Prop where
  neg : ∀ f span, value (.neg f span) = value f
  group : ∀ {f g} span, value f = value g → value (.group f span) = value (.group g span)
  binary : ∀ c c' {f f' g g'} span, value f = value f' → value g = value g' →
    value (.binary c f g span) = value (.binary c' f' g' span)
  quantified : ∀ q q' v {f g} span, value f = value g →
    value (.quantified q v f span) = value (.quantified q' v g span)

namespace Unsigned

variable {value : Formula → α} (unsigned : Unsigned value)

include unsigned

theorem negate (f : Formula) : value f.negate = value f := by
  fun_induction Formula.negate f with
  | case1 span => rfl
  | case2 t => exact unsigned.neg _ _
  | case3 b span => exact unsigned.neg _ _
  | case4 p args span => exact unsigned.neg _ _
  | case5 argument span => exact (unsigned.neg argument span).symm
  | case6 body span ih => exact unsigned.group span ih
  | case7 left right span ihLeft ihRight => exact unsigned.binary _ _ span ihLeft ihRight
  | case8 left right span ihLeft ihRight => exact unsigned.binary _ _ span ihLeft ihRight
  | case9 left right span ihRight => exact unsigned.binary _ _ span rfl ihRight
  | case10 q v body inner span => exact unsigned.quantified _ _ v span (unsigned.neg _ _)
  | case11 q v body span _ ih => exact unsigned.quantified _ _ v span ih

theorem core (f : Formula) : value f.core = value f := by
  fun_induction Formula.core f with
  | case1 argument span ih => exact ih.trans (unsigned.neg argument span).symm
  | case2 f plain => rfl

theorem negationNormal (f : Formula) : value f.negationNormal = value f := by
  fun_induction Formula.negationNormal f with
  | case1 argument span odd ih =>
      exact (ih.trans (unsigned.core argument)).trans (unsigned.neg argument span).symm
  | case2 argument span even atom =>
      rw [unsigned.neg, unsigned.neg]
      exact unsigned.core argument
  | case3 argument span even compound ih =>
      rw [ih, unsigned.negate, unsigned.core, unsigned.neg]
  | case4 c left right span ihLeft ihRight => exact unsigned.binary c c span ihLeft ihRight
  | case5 body span ih => exact unsigned.group span ih
  | case6 q v body span ih => exact unsigned.quantified q q v span ih
  | case7 f => rfl

theorem implicationFree (f : Formula) : value f.implicationFree = value f := by
  fun_induction Formula.implicationFree f with
  | case1 argument span ih =>
      rw [unsigned.neg, unsigned.neg]
      exact ih
  | case2 left right span ihLeft ihRight =>
      exact unsigned.binary _ _ span ((unsigned.negate _).trans ihLeft) ihRight
  | case3 c left right span _ ihLeft ihRight => exact unsigned.binary c c span ihLeft ihRight
  | case4 body span ih => exact unsigned.group span ih
  | case5 q v body span ih => exact unsigned.quantified q q v span ih
  | case6 f => rfl

end Unsigned

/-- The names that are left free show no sign. -/
theorem unsigned_leavesFree : Unsigned LeavesFree where
  neg _ _ := rfl
  group _ same := same
  binary c c' f f' g g' span sameLeft sameRight := by
    funext name
    simp only [leavesFree_binary, sameLeft, sameRight]
  quantified q q' v f g span same := by
    funext name
    simp only [leavesFree_quantified, same]

/-!
### What is collected
-/

/-- A list that is put together from the parts of a formula in their order: negations and
parentheses add nothing, and a quantifier puts an entry for its variable in front. -/
structure Collects (entry : Variable → α) (value : Formula → List α) : Prop where
  neg : ∀ f span, value (.neg f span) = value f
  group : ∀ f span, value (.group f span) = value f
  binary : ∀ c f g span, value (.binary c f g span) = value f ++ value g
  quantified : ∀ q v f span, value (.quantified q v f span) = entry v :: value f

theorem collects_boundNames : Collects Variable.name boundNames :=
  ⟨fun _ _ => rfl, fun _ _ => rfl, fun _ _ _ _ => rfl, fun _ _ _ _ => rfl⟩

theorem collects_identifiers : Collects (fun v => (v.name, Role.var)) identifiers :=
  ⟨fun _ _ => rfl, fun _ _ => rfl, fun _ _ _ _ => rfl, fun _ _ _ _ => rfl⟩

namespace Collects

variable {entry : Variable → α} {value : Formula → List α} (collects : Collects entry value)

include collects

/-- What is collected shows no sign. -/
theorem unsigned : Unsigned value where
  neg := collects.neg
  group span same := by rw [collects.group, collects.group, same]
  binary c c' f f' g g' span sameLeft sameRight := by
    rw [collects.binary, collects.binary, sameLeft, sameRight]
  quantified q q' v f g span same := by rw [collects.quantified, collects.quantified, same]

theorem matrix (f : Formula) :
    value f = f.leadingBinders.map (fun b => entry b.bound) ++ value f.matrix := by
  induction f with
  | quantified q v body span ih =>
      rw [collects.quantified, leadingBinders, Formula.matrix, List.map_cons, List.cons_append,
        ← ih]
  | _ => rfl

theorem bindAll (bs : List Binder) (f : Formula) :
    value (bindAll bs f) = bs.map (fun b => entry b.bound) ++ value f := by
  induction bs with
  | nil => rfl
  | cons b bs ih => rw [bindAll_cons, collects.quantified, ih, List.map_cons, List.cons_append]

/-- Joining two operands below their binders moves the entries of the right binders in front of what
is collected further inside the left operand. -/
theorem joinBound {left right : Formula} (keepLeft keepRight : Bool) :
    (value (joinBound c keepLeft keepRight left right)).Perm (value left ++ value right) := by
  rw [joinBound_eq, collects.bindAll, collects.group, collects.binary,
    apply_leftBody value collects.group left, apply_rightBody value collects.group right,
    collects.matrix left, collects.matrix right]
  simp only [List.map_append, List.append_assoc]
  -- The left binders stay in front, and only the right ones trade places with the left matrix.
  exact (List.perm_append_comm_assoc _ _ _).append_left _

/-- Pulling quantifiers to the left keeps what is collected, up to its order. -/
theorem pullQuantifiers (f : Formula) : (value f.pullQuantifiers).Perm (value f) := by
  induction f with
  | neg argument span ih => rwa [Formula.pullQuantifiers, collects.neg, collects.neg]
  | binary c left right span ihLeft ihRight =>
      have operands := ihLeft.append ihRight
      rw [← collects.binary c left right span] at operands
      simp only [Formula.pullQuantifiers]
      split
      case isTrue => exact (collects.joinBound _ _).trans operands
      case isFalse => rwa [collects.binary]
  | group body span ih =>
      rw [← collects.group body span] at ih
      simp only [Formula.pullQuantifiers]
      split
      case isTrue => exact ih
      case isFalse => rwa [collects.group]
  | quantified q v body span ih =>
      rw [Formula.pullQuantifiers, collects.quantified, collects.quantified]
      exact ih.cons (entry v)
  | _ => exact List.Perm.refl _

end Collects

/-!
### What is left free
-/

theorem leavesFree_bindAll {bs : List Binder} :
    (bindAll bs f).LeavesFree name ↔
      name ∉ bs.map (fun b => b.bound.name) ∧ f.LeavesFree name := by
  induction bs with
  | nil => simp
  | cons b bs ih =>
      rw [bindAll_cons, leavesFree_quantified, ih, List.map_cons, List.mem_cons, not_or, and_assoc]

/-- Operands that keep apart leave the same names free below their binders as side by side: what
the binders of one operand bind is not free in the other. -/
theorem leavesFree_joinBound {left right : Formula} (separate : apart left right = true)
    (keepLeft keepRight : Bool) :
    (joinBound c keepLeft keepRight left right).LeavesFree name ↔
      left.LeavesFree name ∨ right.LeavesFree name := by
  obtain ⟨distinct, unusedLeft, unusedRight⟩ := apart_eq_true.1 separate
  have inLeft := apply_leftBody (fun g => g.LeavesFree name) (fun _ _ => rfl) left keepLeft
  have inRight := apply_rightBody (fun g => g.LeavesFree name) (fun _ _ => rfl) right keepRight
  rw [joinBound_eq, leavesFree_bindAll, leavesFree_group, leavesFree_binary, inLeft, inRight,
    List.map_append, List.mem_append, not_or]
  change (name ∉ left.leadingNames ∧ name ∉ right.leadingNames) ∧
    (left.matrix.LeavesFree name ∨ right.matrix.LeavesFree name) ↔ _
  constructor
  · rintro ⟨⟨unboundLeft, unboundRight⟩, free | free⟩
    · exact Or.inl (leavesFree_iff_matrix.2 ⟨unboundLeft, free⟩)
    · exact Or.inr (leavesFree_iff_matrix.2 ⟨unboundRight, free⟩)
  · rintro (free | free)
    · obtain ⟨unbound, inside⟩ := leavesFree_iff_matrix.1 free
      exact ⟨⟨unbound, fun bound => unusedLeft name bound free⟩, Or.inl inside⟩
    · obtain ⟨unbound, inside⟩ := leavesFree_iff_matrix.1 free
      exact ⟨⟨fun bound => unusedRight name bound free, unbound⟩, Or.inr inside⟩

/-- Pulling quantifiers to the left keeps the free names. -/
theorem leavesFree_pullQuantifiers :
    f.pullQuantifiers.LeavesFree name ↔ f.LeavesFree name := by
  induction f with
  | neg argument span ih => exact ih
  | binary c left right span ihLeft ihRight =>
      have operands := or_congr ihLeft ihRight
      simp only [pullQuantifiers, leavesFree_binary]
      split
      case isTrue allowed =>
        exact (leavesFree_joinBound (pulls_eq_true.1 allowed).2.2 _ _).trans operands
      case isFalse => exact leavesFree_binary.trans operands
  | group body span ih =>
      simp only [pullQuantifiers]
      split
      case isTrue => exact ih
      case isFalse => exact ih
  | quantified q bound body span ih =>
      rw [pullQuantifiers, leavesFree_quantified, leavesFree_quantified, ih]
  | _ => exact Iff.rfl

end PredicateLogic.Formula
