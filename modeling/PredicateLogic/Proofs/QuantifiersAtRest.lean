/-
Module: PredicateLogic.Proofs.QuantifiersAtRest
Purpose: One pass of pulling quantifiers to the left is enough.
  A formula is at rest when pulling has nothing to do at any of its nodes (`AtRest`), and such a
  formula is left as it is.  The pass goes from the leaves to the root, so a node that was left
  alone could be upset only by what is done around it; but whatever moves takes whole bodies along,
  and the connective that is made anew has no quantifier at the front of its right operand.
Main exports: Formula.Blocked, Formula.blocked_iff, Formula.AtRest,
  Formula.pullQuantifiers_eq_self_iff, Formula.atRest_pullQuantifiers,
  Formula.pullQuantifiers_comes_to_rest
-/
import PredicateLogic.Proofs.PrenexMeaning
import PredicateLogic.Proofs.PulledNodes

namespace PredicateLogic.Formula

variable {f left right : Formula} {c : Connective}

/-!
### What stands in the way of a pull
-/

/-- The binders at the front of two operands stand in each other's way: a name is bound on both
sides, or a name that is bound on one side is free on the other. -/
def Blocked (left right : Formula) : Prop :=
  (∃ x ∈ right.leadingNames, x ∈ left.leadingNames) ∨
    (∃ x ∈ right.leadingNames, left.LeavesFree x) ∨
    (∃ x ∈ left.leadingNames, right.LeavesFree x)

/-- Binders that stand in each other's way are those that do not keep apart. -/
theorem blocked_iff : Blocked left right ↔ apart left right = false := by
  rw [← Bool.not_eq_true, apart_eq_true]
  simp only [Blocked, not_and_or, not_forall, not_not, exists_prop]

/-!
### Formulas at rest
-/

/-- Whether pulling leaves the root of a formula as it is, if it leaves the parts as they are. -/
def rootRests : Formula → Bool
  | .binary c left right _ => !pulls c left right
  | .group body _ => !body.isQuantified
  | _ => true

/-- Pulling has nothing to do at any node of the formula. -/
def AtRest (f : Formula) : Prop := f.Everywhere fun g => g.rootRests = true

instance (f : Formula) : Decidable f.AtRest := inferInstanceAs (Decidable (Everywhere _ f))

/-- A formula at rest is left as it is. -/
theorem pullQuantifiers_eq_self (atRest : f.AtRest) : f.pullQuantifiers = f := by
  induction f with
  | neg argument span ih => rw [pullQuantifiers, ih atRest.2]
  | binary c left right span ihLeft ihRight =>
      obtain ⟨here, restLeft, restRight⟩ := atRest
      have refused : pulls c left right = false := by simpa [rootRests] using here
      simp [pullQuantifiers, ihLeft restLeft, ihRight restRight, refused]
  | group body span ih =>
      obtain ⟨here, restBody⟩ := atRest
      have plain : body.isQuantified = false := by simpa [rootRests] using here
      simp [pullQuantifiers, ih restBody, plain]
  | quantified q bound body span ih => rw [pullQuantifiers, ih atRest.2]
  | _ => rfl

/-- Each node that pulling leaves or makes is at rest: a pull that was not made is refused for the
operands as they stand now, and the right operand of a new connective starts with no quantifier. -/
theorem pullsTo_rootRests : PullsTo (fun _ => True) (fun g => g.rootRests = true) where
  rebindable := { group := fun _ _ _ _ _ => rfl, quantified := fun _ _ _ _ _ _ _ => rfl }
  leaf f leaf _ := by
    cases f with
    | binary c left right span => simp [isAtom, isEmpty] at leaf
    | group body span => simp [isAtom, isEmpty] at leaf
    | _ => rfl
  neg _ _ _ := rfl
  pulled c left right span keepLeft keepRight _ _ := by
    have plain := isQuantified_rightBody (pullQuantifiers_groupsQuantified right) keepRight
    simp [rootRests, pulls, plain]
  unpulled c left right span _ refused := by simp [rootRests, refused]
  group body span _ plain := by simp [rootRests, plain]
  quantified _ _ _ _ _ := rfl

/-- Once quantifiers were pulled, the formula is at rest. -/
theorem atRest_pullQuantifiers (f : Formula) : f.pullQuantifiers.AtRest :=
  pullsTo_rootRests.everywhere (everywhere_of_forall (fun _ => trivial) f)

/-- The formulas at rest are those that pulling leaves as they are. -/
theorem pullQuantifiers_eq_self_iff : f.pullQuantifiers = f ↔ f.AtRest := by
  constructor
  · intro same
    rw [← same]
    exact atRest_pullQuantifiers f
  · exact pullQuantifiers_eq_self

/-!
### One pass
-/

/-- If the root of a formula is a conjunction or disjunction whose right operand starts with a
quantifier, then the binders of the operands stand in each other's way. -/
def JoinsOnlyBlocked : Formula → Prop
  | .binary c left right _ => c ≠ .implication → right.isQuantified = true → Blocked left right
  | _ => True

/-- At a node at rest no pull is left to be made but a blocked one. -/
theorem joinsOnlyBlocked_of_rootRests {g : Formula} (rests : g.rootRests = true) :
    g.JoinsOnlyBlocked := by
  cases g with
  | binary c left right span =>
      intro monotone quantified
      rw [blocked_iff, ← Bool.not_eq_true]
      intro separate
      have allowed := pulls_eq_true.2 ⟨monotone, quantified, separate⟩
      simp [rootRests, allowed] at rests
  | _ => trivial

/-- Pulling quantifiers to the left a second time changes nothing.  After the first time no
parentheses stand directly around a quantifier, and where the right operand of a conjunction or
disjunction starts with a quantifier, the binders of the two operands stand in each other's way. -/
theorem pullQuantifiers_comes_to_rest (f : Formula) :
    f.pullQuantifiers.pullQuantifiers = f.pullQuantifiers ∧
      (f.pullQuantifiers.Everywhere fun g => g.groupsQuantified = false) ∧
      f.pullQuantifiers.Everywhere JoinsOnlyBlocked := by
  have atRest := atRest_pullQuantifiers f
  exact ⟨pullQuantifiers_eq_self_iff.2 atRest, pullQuantifiers_groupsQuantified f,
    atRest.imp fun _ => joinsOnlyBlocked_of_rootRests⟩

end PredicateLogic.Formula
