/-
Module: PredicateLogic.Proofs.SeparatedBinders
Purpose: Where all binders have names of their own, quantifiers are pulled wherever they can be.
  Pulling keeps the names that a formula binds, up to their order, and the names that it leaves
  free.  So the operands of a connective keep apart after they were rewritten if all binders of the
  formula have names of their own, none of them free, and renaming leaves every formula so.
Main exports: Formula.Separated, Formula.Separated.unrefused, Formula.Separated.pullQuantifiers,
  Formula.alphaEquivalent_of_rename, Formula.separated_of_rename
-/
import PredicateLogic.Proofs.CaptureAvoidance
import PredicateLogic.Proofs.CollectedNames

namespace PredicateLogic.Formula

variable {f g : Formula} {c : Connective} {name : String}

/-!
### Names of their own
-/

/-- The binders of a formula have names of their own, none of them free. -/
structure Separated (f : Formula) : Prop where
  distinct : f.boundNames.Nodup
  unfree : ∀ x ∈ f.boundNames, ¬ f.LeavesFree x

theorem Separated.left {span : Span} (separated : (Formula.binary c f g span).Separated) :
    f.Separated := by
  refine ⟨(List.nodup_append.1 separated.distinct).1, ?_⟩
  intro x member free
  exact separated.unfree x (List.mem_append.2 (Or.inl member)) (leavesFree_binary.2 (Or.inl free))

theorem Separated.right {span : Span} (separated : (Formula.binary c f g span).Separated) :
    g.Separated := by
  refine ⟨(List.nodup_append.1 separated.distinct).2.1, ?_⟩
  intro x member free
  exact separated.unfree x (List.mem_append.2 (Or.inr member)) (leavesFree_binary.2 (Or.inr free))

theorem Separated.body {q : Quantifier} {v : Variable} {span : Span}
    (separated : (Formula.quantified q v f span).Separated) : f.Separated := by
  obtain ⟨own, distinct⟩ := List.nodup_cons.1 separated.distinct
  refine ⟨distinct, ?_⟩
  intro x member free
  have other : x ≠ v.name := by
    rintro rfl
    exact own member
  exact separated.unfree x (List.mem_cons_of_mem v.name member)
    (leavesFree_quantified.2 ⟨other, free⟩)

/-- The binders at the front of a formula whose quantifiers were pulled bind names that it bound
before. -/
theorem mem_boundNames_of_leading (member : name ∈ f.pullQuantifiers.leadingNames) :
    name ∈ f.boundNames := by
  apply (collects_boundNames.pullQuantifiers f).mem_iff.1
  rw [collects_boundNames.matrix]
  exact List.mem_append.2 (Or.inl member)

/-- The operands of a connective keep apart when their own quantifiers were pulled. -/
theorem Separated.apart_pullQuantifiers {span : Span}
    (separated : (Formula.binary c f g span).Separated) :
    apart f.pullQuantifiers g.pullQuantifiers = true := by
  obtain ⟨-, -, different⟩ := List.nodup_append.1 separated.distinct
  rw [apart_eq_true]
  refine ⟨?_, ?_, ?_⟩
  · intro x inRight inLeft
    exact different x (mem_boundNames_of_leading inLeft) x (mem_boundNames_of_leading inRight) rfl
  · intro x inRight free
    exact separated.unfree x (List.mem_append.2 (Or.inr (mem_boundNames_of_leading inRight)))
      (leavesFree_binary.2 (Or.inl (leavesFree_pullQuantifiers.1 free)))
  · intro x inLeft free
    exact separated.unfree x (List.mem_append.2 (Or.inl (mem_boundNames_of_leading inLeft)))
      (leavesFree_binary.2 (Or.inr (leavesFree_pullQuantifiers.1 free)))

/-- No pull is refused, at whatever node. -/
theorem Separated.unrefused (separated : f.Separated) :
    f.Everywhere fun g => g.refusesPull = false := by
  induction f with
  | neg argument span ih => exact ⟨rfl, ih ⟨separated.distinct, separated.unfree⟩⟩
  | binary c left right span ihLeft ihRight =>
      refine ⟨?_, ihLeft separated.left, ihRight separated.right⟩
      simp [refusesPull, separated.apart_pullQuantifiers]
  | group body span ih => exact ⟨rfl, ih ⟨separated.distinct, separated.unfree⟩⟩
  | quantified q v body span ih => exact ⟨rfl, ih separated.body⟩
  | _ => rfl

/-- Pulling leaves every binder its name. -/
theorem Separated.pullQuantifiers (separated : f.Separated) : f.pullQuantifiers.Separated := by
  have same := collects_boundNames.pullQuantifiers f
  refine ⟨same.nodup_iff.2 separated.distinct, ?_⟩
  intro x member free
  exact separated.unfree x (same.mem_iff.1 member) (leavesFree_pullQuantifiers.1 free)

/-!
### Renaming
-/

/-- Renaming changes the names of bound variables alone. -/
theorem alphaEquivalent_of_rename (renamed : f.rename = .ok g) : f.AlphaEquivalent g := by
  obtain ⟨scope, after, start, walk⟩ := rename_eq_ok.1 renamed
  obtain ⟨-, nothing, -, -, -⟩ := Scope.ofFormula_eq_ok start
  have below := walk.alphaIn (poolFor_ofFormula start) (givenFor_ofFormula start)
  rwa [nothing] at below

/-- Renaming leaves every binder a name of its own. -/
theorem separated_of_rename (renamed : f.rename = .ok g) : g.Separated := by
  obtain ⟨scope, after, start, walk⟩ := rename_eq_ok.1 renamed
  obtain ⟨-, -, taken, -, -⟩ := Scope.ofFormula_eq_ok start
  obtain ⟨distinct, names⟩ := walk.boundNames (poolFor_ofFormula start)
  refine ⟨distinct, ?_⟩
  intro x member free
  have same := alphaEquivalent_of_rename renamed
  exact (names x member).1 ((taken x).2 (same.leavesFree_iff.2 free))

end PredicateLogic.Formula
