/-
Module: PredicateLogic.Proofs.PulledShapes
Purpose: What pulling quantifiers to the left keeps of the shape of a formula.
  The bodies that end up next to each other in the new group stood below quantifiers or in
  operands before.  Below a quantifier stands a primary formula, which may stand anywhere; where its
  parentheses are dropped, what comes out of them has no connective at its top that the place it
  gets does not take (`Written.trimLeft`, `Written.trimRight`).
Main exports: Formula.Written.bindAll, Formula.Written.trimLeft, Formula.Written.trimRight,
  Formula.Written.joinBound, Formula.Written.pullQuantifiers
-/
import PredicateLogic.Proofs.NegatedShapes
import PredicateLogic.Proofs.PulledNodes

namespace PredicateLogic.Formula

variable {f left right : Formula} {c : Connective} {bs : List Binder} {power : Nat}

/-!
### The shape of what was read
-/

/-- A primary formula can stand anywhere. -/
theorem Written.ofPrimary (written : f.Written 50) : f.Written power :=
  writtenWith_bindingPower.1 (writtenWith_bindingPower.2 written).ofPrimary

/-- A formula that starts with a quantifier is a primary formula. -/
theorem Written.ofQuantified {level : Nat} (written : f.Written power)
    (quantified : f.isQuantified = true) : f.Written level := by
  cases f with
  | quantified q bound body span => exact written
  | _ => cases quantified

/-- The leading binders of a formula that was read are unmarked. -/
theorem Written.leadingBinders (written : f.Written power) :
    ∀ b ∈ f.leadingBinders, b.bound.free = none := by
  induction f generalizing power with
  | quantified q bound body span ih =>
      exact List.forall_mem_cons.2 ⟨written.1, ih written.2⟩
  | _ => simp [Formula.leadingBinders]

/-- Below the leading binders stands what may stand in place of the formula. -/
theorem Written.matrix (written : f.Written power) : f.matrix.Written power := by
  induction f generalizing power with
  | quantified q bound body span ih => exact (ih written.2).ofPrimary
  | _ => exact written

/-- Unmarked binders may be put in front of a primary formula. -/
theorem Written.bindAll (unmarked : ∀ b ∈ bs, b.bound.free = none) (written : f.Written 50) :
    (bindAll bs f).Written power := by
  induction bs generalizing power with
  | nil => exact written.ofPrimary
  | cons b bs ih =>
      obtain ⟨here, others⟩ := List.forall_mem_cons.1 unmarked
      exact ⟨here, ih others⟩

/-- A left operand without its parentheses has no connective at its top. -/
theorem Written.trimLeft (written : f.Written 50) : f.trimLeft.Written 50 := by
  unfold Formula.trimLeft
  split
  case h_1 => exact written
  case h_2 body span compound =>
    cases body with
    | binary c left right inner => exact absurd rfl (compound c left right inner)
    | _ => exact written
  case h_3 => exact written.ofPrimary
  case h_4 => exact written

/-- A right operand without its parentheses has no implication at its top. -/
theorem Written.trimRight (written : f.Written 50) : f.trimRight.Written 49 := by
  unfold Formula.trimRight
  split
  case h_1 => exact written
  case h_2 body span plain =>
    cases body with
    | binary c left right inner =>
        cases c with
        | implication => exact absurd rfl (plain left right inner)
        | conjunction | disjunction => exact ⟨by decide, written.2⟩
    | _ => exact written
  case h_3 => exact written.ofPrimary
  case h_4 => exact written.ofPrimary

/-- The new group below the binders of both operands has the shape of one that was read. -/
theorem Written.joinBound (monotone : c ≠ .implication) (writtenLeft : left.Written 50)
    (writtenRight : right.Written 50) (keepLeft keepRight : Bool) :
    (joinBound c keepLeft keepRight left right).Written power := by
  have unmarked : ∀ b ∈ left.leadingBinders ++ right.leadingBinders, b.bound.free = none :=
    List.forall_mem_append.2 ⟨writtenLeft.leadingBinders, writtenRight.leadingBinders⟩
  have leftBody : (if keepLeft then left.matrix else left.matrix.trimLeft).Written 50 := by
    cases keepLeft
    · exact writtenLeft.matrix.trimLeft
    · exact writtenLeft.matrix
  have rightBody : (if keepRight then right.matrix else right.matrix.trimRight).Written 49 := by
    cases keepRight
    · exact writtenRight.matrix.trimRight
    · exact writtenRight.matrix.ofPrimary
  apply Written.bindAll unmarked
  rw [Written, Written, Connective.bindingPower_eq monotone]
  exact ⟨by decide, leftBody, rightBody⟩

/-- A formula of the shape of one that was read keeps it when its quantifiers are pulled to the
left. -/
theorem Written.pullQuantifiers (written : f.Written power) : f.pullQuantifiers.Written power := by
  induction f generalizing power with
  | neg argument span ih => exact ih written
  | binary c left right span ihLeft ihRight =>
      obtain ⟨tighter, writtenLeft, writtenRight⟩ := written
      have newLeft := ihLeft writtenLeft
      have newRight := ihRight writtenRight
      simp only [Formula.pullQuantifiers]
      split
      case isTrue allowed =>
        obtain ⟨monotone, quantified, -⟩ := pulls_eq_true.1 allowed
        rw [Connective.bindingPower_eq monotone] at newLeft
        exact newLeft.joinBound monotone (newRight.ofQuantified quantified) _ _
      case isFalse => exact ⟨tighter, newLeft, newRight⟩
  | group body span ih =>
      have newBody := ih written
      simp only [Formula.pullQuantifiers]
      split
      case isTrue quantified => exact newBody.ofQuantified quantified
      case isFalse => exact newBody
  | quantified q bound body span ih => exact ⟨written.1, ih written.2⟩
  | _ => exact written

end PredicateLogic.Formula
