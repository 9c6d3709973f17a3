/-
Module: PredicateLogic.Proofs.Regrouping
Purpose: The formula that is read back when a chain on the left of a connective has no parentheses.
  Printing adds no parentheses, and reading groups chains of conjunctions and disjunctions to the
  right, so a chain on the left is taken apart (`regroup`).  This matters unless the chain is joined
  by the connective it stands in front of, which is associative (`Uniform`, `regroup_equivalent`).
  Where a premise is a chain of conjunctions, its negation is one of disjunctions and its
  implication becomes a disjunction too, so a formula with no other premises (`Unmixed`) stays one,
  and is uniform, whatever is done to it.
Main exports: Formula.attach, Formula.regroup, Formula.lexemes_regroup, Formula.WrittenWith.regroup,
  Formula.joinedBy, Formula.Uniform, Formula.regroup_equivalent, Formula.Unmixed,
  Formula.Unmixed.uniform, Formula.Unmixed.negate, Formula.Unmixed.negationNormal,
  Formula.Unmixed.implicationFree
-/
import PredicateLogic.Proofs.NegatedShapes

namespace PredicateLogic

universe u

/-- Conjunction and disjunction are associative. -/
theorem Connective.join_assoc {c : Connective} (monotone : c ≠ .implication) (P Q R : Prop) :
    c.Join P (c.Join Q R) ↔ c.Join (c.Join P Q) R := by
  cases c with
  | conjunction => exact and_assoc.symm
  | disjunction => exact or_assoc.symm
  | implication => exact absurd rfl monotone

/-- The connective that may join the left operand of a connective.  In front of an implication it is
conjunction, since the negation of a premise joined by conjunctions is joined by disjunctions. -/
def Connective.onLeft : Connective → Connective
  | .implication => .conjunction
  | c => c

theorem Connective.onLeft_ne_implication (c : Connective) : c.onLeft ≠ .implication := by
  cases c <;> decide

/-- The connective that takes this one's place when a negation passes over it. -/
def Connective.negated : Connective → Connective
  | .disjunction => .conjunction
  | .conjunction => .disjunction
  | .implication => .conjunction

namespace Formula

/-!
### Reading without parentheses on the left
-/

/-- What is read when a connective and a formula are written behind a chain: the connective goes to
the last operand of the chain. -/
def attach (c : Connective) (right : Formula) (span : Span) : Formula → Formula
  | .binary c' first rest span' => .binary c' first (attach c right span rest) span'
  | left => .binary c left right span

/-- The formula with every chain of conjunctions and disjunctions grouped to the right. -/
def regroup : Formula → Formula
  | .neg argument span => .neg argument.regroup span
  | .binary .implication left right span =>
      .binary .implication left.regroup right.regroup span
  | .binary c left right span => attach c right.regroup span left.regroup
  | .group body span => .group body.regroup span
  | .quantified q bound body span => .quantified q bound body.regroup span
  | f => f

/-- Attaching writes the connective and the right operand behind the left one. -/
theorem lexemes_attach (c : Connective) (left right : Formula) (span : Span) :
    (attach c right span left).lexemes = left.lexemes ++ .connective c :: right.lexemes := by
  induction left with
  | binary c' first rest span' ihFirst ihRest => simp [attach, lexemes, ihRest]
  | _ => rfl

/-- Grouping to the right is not seen in what is written. -/
theorem lexemes_regroup (f : Formula) : f.regroup.lexemes = f.lexemes := by
  induction f with
  | neg argument span ih => simp [regroup, lexemes, ih]
  | binary c left right span ihLeft ihRight =>
      cases c with
      | implication => simp [regroup, lexemes, ihLeft, ihRight]
      | conjunction | disjunction => simp [regroup, lexemes_attach, lexemes, ihLeft, ihRight]
  | group body span ih => simp [regroup, lexemes, ih]
  | quantified q bound body span ih => simp [regroup, lexemes, ih]
  | _ => rfl

/-- A chain attached to a chain is a chain of the shape that reading builds. -/
theorem Written.attach {c : Connective} {left right : Formula} (monotone : c ≠ .implication)
    (writtenLeft : left.Written 49) (writtenRight : right.Written 49) (span : Span) :
    (attach c right span left).Written 49 := by
  have tight := Connective.bindingPower_eq monotone
  have behind : right.Written (c.bindingPower - 1) := by
    rw [tight]
    exact writtenRight
  induction left with
  | binary c' first rest span' ihFirst ihRest =>
      obtain ⟨tighter, writtenFirst, writtenRest⟩ := writtenLeft
      have tight' : c'.bindingPower = 50 := Nat.le_antisymm c'.bindingPower_le tighter
      rw [tight'] at writtenRest
      refine ⟨tighter, writtenFirst, ?_⟩
      rw [tight']
      exact ihRest writtenRest
  | _ =>
      have above : 49 < c.bindingPower := by omega
      exact ⟨above, writtenLeft, behind⟩

/-- A formula whose left operands are chains has the shape that reading builds once it is grouped to
the right. -/
theorem WrittenWith.regroup {f : Formula} {power : Nat} (written : f.WrittenWith looseGrip power) :
    f.regroup.Written power := by
  induction f generalizing power with
  | neg argument span ih => exact ih written
  | binary c left right span ihLeft ihRight =>
      obtain ⟨tighter, writtenLeft, writtenRight⟩ := written
      cases c with
      | implication =>
          exact ⟨tighter, (ihLeft writtenLeft).mono (by decide), ihRight writtenRight⟩
      | conjunction | disjunction =>
          exact Written.mono ((ihLeft writtenLeft).attach (by simp) (ihRight writtenRight) span)
            (Nat.le_of_lt_succ tighter)
  | group body span ih => exact ih written
  | quantified q bound body span ih => exact ⟨written.1, ih written.2⟩
  | _ => exact written

/-!
### Chains of one connective
-/

/-- Whether the connectives at the top of a formula, from one right operand to the next, are all the
given one. -/
def joinedBy (c : Connective) : Formula → Bool
  | .binary c' _ right _ => c' == c && right.joinedBy c
  | _ => true

theorem joinedBy_binary {c c' : Connective} {left right : Formula} {span : Span} :
    (Formula.binary c' left right span).joinedBy c = true ↔ c' = c ∧ right.joinedBy c = true := by
  simp [joinedBy]

theorem joinedBy_attach {c : Connective} {left right : Formula}
    (joinedLeft : left.joinedBy c = true) (joinedRight : right.joinedBy c = true) (span : Span) :
    (attach c right span left).joinedBy c = true := by
  induction left with
  | binary c' first rest span' ihFirst ihRest =>
      obtain ⟨same, joinedRest⟩ := joinedBy_binary.1 joinedLeft
      exact joinedBy_binary.2 ⟨same, ihRest joinedRest⟩
  | _ => exact joinedBy_binary.2 ⟨rfl, joinedRight⟩

/-- Attaching to a chain of the same connective keeps the meaning. -/
theorem attach_equivalent {c : Connective} {left right : Formula} (monotone : c ≠ .implication)
    (joined : left.joinedBy c = true) (span : Span) :
    Equivalent.{u} (attach c right span left) (.binary c left right span) := by
  induction left with
  | binary c' first rest span' ihFirst ihRest =>
      obtain ⟨rfl, joinedRest⟩ := joinedBy_binary.1 joined
      refine ((Equivalent.rfl (f := first)).binary c' (ihRest joinedRest) span' span').trans ?_
      intro M ρ
      exact Connective.join_assoc monotone _ _ _
  | _ => exact Equivalent.rfl

/-!
### Uniform formulas
-/

/-- Whether the left operand of a conjunction or disjunction at the root is joined by that same
connective. -/
def uniformLeft : Formula → Bool
  | .binary .implication _ _ _ => true
  | .binary c left _ _ => left.joinedBy c
  | _ => true

/-- No chain on the left of a conjunction or disjunction mixes connectives with it. -/
def Uniform (f : Formula) : Prop := f.Everywhere fun g => g.uniformLeft = true

instance (f : Formula) : Decidable f.Uniform := inferInstanceAs (Decidable (Everywhere _ f))

theorem joinedBy_regroup {c : Connective} {f : Formula} (uniform : f.Uniform)
    (joined : f.joinedBy c = true) : f.regroup.joinedBy c = true := by
  induction f with
  | binary c' left right span ihLeft ihRight =>
      obtain ⟨here, uniformLeft, uniformRight⟩ := uniform
      obtain ⟨rfl, joinedRight⟩ := joinedBy_binary.1 joined
      have right := ihRight uniformRight joinedRight
      cases c' with
      | implication => exact joinedBy_binary.2 ⟨rfl, right⟩
      | conjunction | disjunction => exact joinedBy_attach (ihLeft uniformLeft here) right span
  | _ => rfl

/-- A uniform formula keeps its meaning when it is grouped to the right. -/
theorem regroup_equivalent {f : Formula} (uniform : f.Uniform) :
    Equivalent.{u} f.regroup f := by
  induction f with
  | neg argument span ih => exact (ih uniform.2).neg span span
  | binary c left right span ihLeft ihRight =>
      obtain ⟨here, uniformLeft, uniformRight⟩ := uniform
      have operands := Equivalent.binary c (ihLeft uniformLeft) (ihRight uniformRight) span span
      cases c with
      | implication => exact operands
      | conjunction | disjunction =>
          refine Equivalent.trans ?_ operands
          exact attach_equivalent (by decide) (joinedBy_regroup uniformLeft here) span
  | group body span ih => exact ih uniform.2
  | quantified q bound body span ih => exact (ih uniform.2).quantified q bound span span
  | _ => exact Equivalent.rfl

/-!
### Unmixed formulas
-/

/-- Whether the left operand of a connective at the root is joined by the connective that may join
it. -/
def unmixedLeft : Formula → Bool
  | .binary c left _ _ => left.joinedBy c.onLeft
  | _ => true

/-- No chain on the left of a connective mixes connectives with it, and premises are no chains of
disjunctions.  In a formula that was read the left operands of conjunctions and disjunctions are no
chains, so this is about premises alone: none of them has a disjunction outside parentheses. -/
def Unmixed (f : Formula) : Prop := f.Everywhere fun g => g.unmixedLeft = true

instance (f : Formula) : Decidable f.Unmixed := inferInstanceAs (Decidable (Everywhere _ f))

/-- Of an implication uniform formulas ask nothing, and of the other connectives the same. -/
theorem Unmixed.uniform {f : Formula} (unmixed : f.Unmixed) : f.Uniform := by
  refine unmixed.imp fun g here => ?_
  cases g with
  | binary c left right span =>
      cases c with
      | implication => rfl
      | conjunction | disjunction => exact here
  | _ => rfl

/-!
### Rewriting unmixed formulas
-/

section

variable {grip : Connective → Nat} {power : Nat} {c : Connective} {f : Formula}

/-- A primary formula has no connective at its top. -/
theorem joinedBy_of_primary (written : f.WrittenWith grip 50) : f.joinedBy c = true := by
  cases f with
  | binary c' left right span => exact absurd written.1 (Nat.not_lt.2 c'.bindingPower_le)
  | _ => rfl

theorem joinedBy_negate (written : f.WrittenWith grip power) (joined : f.joinedBy c = true) :
    f.negate.joinedBy c.negated = true := by
  fun_induction Formula.negate f generalizing power with
  | case5 argument span => exact joinedBy_of_primary written
  | case7 left right span ihLeft ihRight =>
      obtain ⟨rfl, joinedRight⟩ := joinedBy_binary.1 joined
      exact joinedBy_binary.2 ⟨rfl, ihRight written.2.2 joinedRight⟩
  | case8 left right span ihLeft ihRight =>
      obtain ⟨rfl, joinedRight⟩ := joinedBy_binary.1 joined
      exact joinedBy_binary.2 ⟨rfl, ihRight written.2.2 joinedRight⟩
  | case9 left right span ih =>
      obtain ⟨rfl, joinedRight⟩ := joinedBy_binary.1 joined
      exact joinedBy_binary.2 ⟨rfl, ih written.2.2 joinedRight⟩
  | _ => rfl

/-- A negated formula stays unmixed. -/
theorem Unmixed.negate (unmixed : f.Unmixed) (written : f.WrittenWith grip power) :
    f.negate.Unmixed := by
  fun_induction Formula.negate f generalizing power with
  | case1 span => exact unmixed
  | case5 argument span => exact unmixed.2
  | case6 body span ih => exact ⟨rfl, ih unmixed.2 written⟩
  | case7 left right span ihLeft ihRight =>
      obtain ⟨here, unmixedLeft, unmixedRight⟩ := unmixed
      obtain ⟨-, writtenLeft, writtenRight⟩ := written
      exact ⟨joinedBy_negate writtenLeft here, ihLeft unmixedLeft writtenLeft,
        ihRight unmixedRight writtenRight⟩
  | case8 left right span ihLeft ihRight =>
      obtain ⟨here, unmixedLeft, unmixedRight⟩ := unmixed
      obtain ⟨-, writtenLeft, writtenRight⟩ := written
      exact ⟨joinedBy_negate writtenLeft here, ihLeft unmixedLeft writtenLeft,
        ihRight unmixedRight writtenRight⟩
  | case9 left right span ih =>
      obtain ⟨here, unmixedLeft, unmixedRight⟩ := unmixed
      exact ⟨here, unmixedLeft, ih unmixedRight written.2.2⟩
  | case10 q bound body inner span => exact ⟨rfl, rfl, unmixed.2⟩
  | case11 q bound body span notGroup ih => exact ⟨rfl, ih unmixed.2 written.2⟩
  | _ => exact ⟨rfl, unmixed⟩

theorem joinedBy_negationNormal (written : f.WrittenWith looseGrip power)
    (joined : f.joinedBy c = true) : f.negationNormal.joinedBy c = true := by
  induction f generalizing power with
  | neg argument span ih =>
      have primary : (Formula.neg argument span).WrittenWith looseGrip 50 := written
      exact joinedBy_of_primary (primary.negationNormal rfl (Or.inr rfl))
  | binary c' left right span ihLeft ihRight =>
      obtain ⟨same, joinedRight⟩ := joinedBy_binary.1 joined
      rw [negationNormal]
      exact joinedBy_binary.2 ⟨same, ihRight written.2.2 joinedRight⟩
  | _ => simp [negationNormal, joinedBy]

/-- An unmixed formula stays so when its negations are brought down to atoms. -/
theorem Unmixed.negationNormal (unmixed : f.Unmixed) (written : f.WrittenWith looseGrip power) :
    f.negationNormal.Unmixed := by
  fun_induction Formula.negationNormal f generalizing power with
  | case1 argument span odd ih => exact ih unmixed.2.core (WrittenWith.core written)
  | case2 argument span even atom => exact ⟨rfl, unmixed.2.core⟩
  | case3 argument span even compound ih =>
      have primary := WrittenWith.core written
      have inside : argument.core.Unmixed := unmixed.2.core
      exact ih (inside.negate primary) (primary.negate rfl (Or.inr rfl))
  | case4 c left right span ihLeft ihRight =>
      obtain ⟨here, unmixedLeft, unmixedRight⟩ := unmixed
      obtain ⟨-, writtenLeft, writtenRight⟩ := written
      exact ⟨joinedBy_negationNormal writtenLeft here, ihLeft unmixedLeft writtenLeft,
        ihRight unmixedRight writtenRight⟩
  | case5 body span ih => exact ⟨rfl, ih unmixed.2 written⟩
  | case6 q bound body span ih => exact ⟨rfl, ih unmixed.2 written.2⟩
  | case7 f _ _ _ _ => exact unmixed

theorem joinedBy_implicationFree (monotone : c ≠ .implication) (joined : f.joinedBy c = true) :
    f.implicationFree.joinedBy c = true := by
  induction f with
  | binary c' left right span ihLeft ihRight =>
      obtain ⟨rfl, joinedRight⟩ := joinedBy_binary.1 joined
      cases c' with
      | implication => exact absurd rfl monotone
      | conjunction | disjunction => exact joinedBy_binary.2 ⟨rfl, ihRight joinedRight⟩
  | _ => rfl

/-- An unmixed formula stays so when its implications become disjunctions. -/
theorem Unmixed.implicationFree (unmixed : f.Unmixed) (written : f.WrittenWith looseGrip power) :
    f.implicationFree.Unmixed := by
  induction f generalizing power with
  | neg argument span ih => exact ⟨rfl, ih unmixed.2 written⟩
  | binary c left right span ihLeft ihRight =>
      obtain ⟨here, unmixedLeft, unmixedRight⟩ := unmixed
      obtain ⟨-, writtenLeft, writtenRight⟩ := written
      have joined := joinedBy_implicationFree c.onLeft_ne_implication here
      have left := ihLeft unmixedLeft writtenLeft
      have right := ihRight unmixedRight writtenRight
      cases c with
      | implication =>
          have shape := writtenLeft.implicationFree
          exact ⟨joinedBy_negate shape joined, left.negate shape, right⟩
      | conjunction | disjunction => exact ⟨joined, left, right⟩
  | group body span ih => exact ⟨rfl, ih unmixed.2 written⟩
  | quantified q bound body span ih => exact ⟨rfl, ih unmixed.2 written.2⟩
  | _ => exact unmixed

end

end Formula

end PredicateLogic
