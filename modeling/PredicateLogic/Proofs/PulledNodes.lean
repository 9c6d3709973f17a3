/-
Module: PredicateLogic.Proofs.PulledNodes
Purpose: What pulling quantifiers to the left makes of the nodes of a formula.
  A node of the result stands where one of the formula stood, or it is one of the few that are made
  anew: a binder that was pulled out, the group below the binders, the connective in this group, and
  parentheses around an operand of it.  `PullsTo` asks one question about each of these nodes, and
  `PullsTo.everywhere` answers for the whole result.
Main exports: Formula.pulls_eq_true, Formula.leftBody, Formula.rightBody, Formula.apply_leftBody,
  Formula.apply_rightBody, Formula.PullsTo, Formula.PullsTo.everywhere,
  Formula.Everywhere.pullQuantifiers, Formula.NegationsOnAtoms.pullQuantifiers,
  Formula.pullQuantifiers_groupsQuantified, Formula.pullQuantifiers_joinsQuantified
-/
import PredicateLogic.Formula.Prenex
import PredicateLogic.Proofs.EveryNode

namespace PredicateLogic.Formula

variable {f left right : Formula} {c : Connective} {bs : List Binder}

/-- Quantifiers are pulled over conjunctions and disjunctions, and only if the right operand starts
with one. -/
theorem pulls_eq_true : pulls c left right = true ↔
    c ≠ .implication ∧ right.isQuantified = true ∧ apart left right = true := by
  simp [pulls, and_assoc]

/-!
### The operands in the new group
-/

/-- What is left of a left operand when the binders at its front are pulled out. -/
def leftBody (keep : Bool) (left : Formula) : Formula :=
  if keep then left.matrix else left.matrix.trimLeft

/-- What is left of a right operand when the binders at its front are pulled out. -/
def rightBody (keep : Bool) (right : Formula) : Formula :=
  if keep then right.matrix else right.matrix.trimRight

theorem joinBound_eq (c : Connective) (keepLeft keepRight : Bool) (left right : Formula) :
    joinBound c keepLeft keepRight left right =
      bindAll (left.leadingBinders ++ right.leadingBinders)
        (.group (.binary c (left.leftBody keepLeft) (right.rightBody keepRight) .unknown)
          .unknown) :=
  rfl

/-- No quantifier stands where the binders at the front end. -/
theorem isQuantified_matrix (f : Formula) : f.matrix.isQuantified = false := by
  induction f with
  | quantified q bound body span ih => exact ih
  | _ => rfl

section

variable {α : Type} (value : Formula → α)

theorem apply_trimLeft (grouped : ∀ g span, value (.group g span) = value g) (f : Formula) :
    value f.trimLeft = value f := by
  unfold trimLeft
  split
  · rfl
  · exact (grouped _ _).symm
  · exact grouped _ _
  · rfl

theorem apply_trimRight (grouped : ∀ g span, value (.group g span) = value g) (f : Formula) :
    value f.trimRight = value f := by
  unfold trimRight
  split
  · rfl
  · exact (grouped _ _).symm
  · exact grouped _ _
  · rfl

/-- Parentheses aside, what is left of a left operand is what its binders stood in front of. -/
theorem apply_leftBody (grouped : ∀ g span, value (.group g span) = value g) (f : Formula)
    (keep : Bool) : value (f.leftBody keep) = value f.matrix := by
  cases keep with
  | true => rfl
  | false => exact apply_trimLeft value grouped f.matrix

/-- Parentheses aside, what is left of a right operand is what its binders stood in front of. -/
theorem apply_rightBody (grouped : ∀ g span, value (.group g span) = value g) (f : Formula)
    (keep : Bool) : value (f.rightBody keep) = value f.matrix := by
  cases keep with
  | true => rfl
  | false => exact apply_trimRight value grouped f.matrix

end

/-!
### Conditions on every node
-/

/-- A condition that parentheses around a connective meet, and that a quantifier meets with any body
if it meets it with one. -/
structure Rebindable (condition : Formula → Prop) : Prop where
  group : ∀ c left right inner span, condition (.group (.binary c left right inner) span)
  quantified : ∀ q bound body body' span span', condition (.quantified q bound body span) →
    condition (.quantified q bound body' span')

section

variable {condition : Formula → Prop}

/-- A condition that the quantifiers of a formula meet is met by each leading binder with any
body. -/
theorem Everywhere.leadingBinders (rebindable : Rebindable condition)
    (everywhere : f.Everywhere condition) :
    ∀ b ∈ f.leadingBinders, ∀ body span,
      condition (.quantified b.quantifier b.bound body span) := by
  induction f with
  | quantified q bound body span ih =>
      intro b member
      rcases List.mem_cons.1 member with rfl | member
      · intro body' span'
        exact rebindable.quantified _ _ _ _ _ _ everywhere.1
      · exact ih everywhere.2 b member
  | _ => simp [Formula.leadingBinders]

theorem Everywhere.matrix (everywhere : f.Everywhere condition) :
    f.matrix.Everywhere condition := by
  induction f with
  | quantified q bound body span ih => exact ih everywhere.2
  | _ => exact everywhere

theorem Everywhere.bindAll
    (binders : ∀ b ∈ bs, ∀ body span, condition (.quantified b.quantifier b.bound body span))
    (everywhere : f.Everywhere condition) : (bindAll bs f).Everywhere condition := by
  induction bs with
  | nil => exact everywhere
  | cons b bs ih =>
      obtain ⟨here, others⟩ := List.forall_mem_cons.1 binders
      exact ⟨here _ _, ih others⟩

theorem Everywhere.trimLeft (rebindable : Rebindable condition)
    (everywhere : f.Everywhere condition) : f.trimLeft.Everywhere condition := by
  unfold Formula.trimLeft
  split
  · exact everywhere
  · exact everywhere.2
  · exact ⟨rebindable.group _ _ _ _ _, everywhere⟩
  · exact everywhere

theorem Everywhere.trimRight (rebindable : Rebindable condition)
    (everywhere : f.Everywhere condition) : f.trimRight.Everywhere condition := by
  unfold Formula.trimRight
  split
  · exact everywhere
  · exact everywhere.2
  · exact ⟨rebindable.group _ _ _ _ _, everywhere⟩
  · exact everywhere

theorem Everywhere.leftBody (rebindable : Rebindable condition)
    (everywhere : f.Everywhere condition) (keep : Bool) :
    (f.leftBody keep).Everywhere condition := by
  cases keep with
  | true => exact everywhere.matrix
  | false => exact everywhere.matrix.trimLeft rebindable

theorem Everywhere.rightBody (rebindable : Rebindable condition)
    (everywhere : f.Everywhere condition) (keep : Bool) :
    (f.rightBody keep).Everywhere condition := by
  cases keep with
  | true => exact everywhere.matrix
  | false => exact everywhere.matrix.trimRight rebindable

/-- Where both operands meet a condition, the operands joined below their binders meet it if the new
connective does. -/
theorem Everywhere.joinBound (rebindable : Rebindable condition)
    (everyLeft : left.Everywhere condition) (everyRight : right.Everywhere condition)
    (keepLeft keepRight : Bool)
    (here : condition (.binary c (left.leftBody keepLeft) (right.rightBody keepRight) .unknown)) :
    (joinBound c keepLeft keepRight left right).Everywhere condition := by
  have binders : ∀ b ∈ left.leadingBinders ++ right.leadingBinders, ∀ body span,
      condition (.quantified b.quantifier b.bound body span) :=
    List.forall_mem_append.2
      ⟨everyLeft.leadingBinders rebindable, everyRight.leadingBinders rebindable⟩
  rw [joinBound_eq]
  apply Everywhere.bindAll binders
  exact ⟨rebindable.group _ _ _ _ _, here, everyLeft.leftBody rebindable keepLeft,
    everyRight.rightBody rebindable keepRight⟩

end

/-- From nodes that meet the source condition, pulling makes nodes that meet the target
condition. -/
structure PullsTo (source target : Formula → Prop) : Prop where
  rebindable : Rebindable target
  leaf : ∀ f, f.isAtom = true ∨ f.isEmpty = true → source f → target f
  neg : ∀ argument span, source (.neg argument span) →
    target (.neg argument.pullQuantifiers span)
  pulled : ∀ c left right span keepLeft keepRight, source (.binary c left right span) →
    pulls c left.pullQuantifiers right.pullQuantifiers = true →
      target (.binary c (left.pullQuantifiers.leftBody keepLeft)
        (right.pullQuantifiers.rightBody keepRight) .unknown)
  unpulled : ∀ c left right span, source (.binary c left right span) →
    pulls c left.pullQuantifiers right.pullQuantifiers = false →
      target (.binary c left.pullQuantifiers right.pullQuantifiers span)
  group : ∀ body span, source (.group body span) → body.pullQuantifiers.isQuantified = false →
    target (.group body.pullQuantifiers span)
  quantified : ∀ q bound body span, source (.quantified q bound body span) →
    target (.quantified q bound body.pullQuantifiers span)

/-- If each node is pulled to one that meets the target condition, the whole result meets it. -/
theorem PullsTo.everywhere {source target : Formula → Prop} (pulling : PullsTo source target)
    (everywhere : f.Everywhere source) : f.pullQuantifiers.Everywhere target := by
  induction f with
  | neg argument span ih => exact ⟨pulling.neg _ _ everywhere.1, ih everywhere.2⟩
  | binary c left right span ihLeft ihRight =>
      obtain ⟨here, everyLeft, everyRight⟩ := everywhere
      have newLeft := ihLeft everyLeft
      have newRight := ihRight everyRight
      simp only [Formula.pullQuantifiers]
      split
      case isTrue allowed =>
        exact newLeft.joinBound pulling.rebindable newRight _ _
          (pulling.pulled _ _ _ _ _ _ here allowed)
      case isFalse refused =>
        exact ⟨pulling.unpulled _ _ _ _ here (Bool.eq_false_iff.2 refused), newLeft, newRight⟩
  | group body span ih =>
      have newBody := ih everywhere.2
      simp only [Formula.pullQuantifiers]
      split
      case isTrue => exact newBody
      case isFalse plain =>
        exact ⟨pulling.group _ _ everywhere.1 (Bool.eq_false_iff.2 plain), newBody⟩
  | quantified q bound body span ih =>
      exact ⟨pulling.quantified _ _ _ _ everywhere.1, ih everywhere.2⟩
  | empty span => exact pulling.leaf _ (Or.inr rfl) everywhere
  | _ => exact pulling.leaf _ (Or.inl rfl) everywhere

/-!
### Conditions that are kept
-/

theorem Indifferent.pullsTo {condition : Formula → Prop} (indifferent : Indifferent condition) :
    PullsTo condition condition where
  rebindable :=
    { group := fun _ _ _ _ _ => indifferent.group _ _
      quantified := fun _ _ _ _ _ _ here => indifferent.quantified _ _ _ _ _ _ _ here }
  leaf _ _ here := here
  neg _ _ _ := indifferent.neg _ _
  pulled _ _ _ _ _ _ _ allowed := indifferent.joined _ _ _ _ (pulls_eq_true.1 allowed).1
  unpulled _ _ _ _ here _ := indifferent.operands _ _ _ _ _ _ _ here
  group _ _ _ _ := indifferent.group _ _
  quantified _ _ _ _ here := indifferent.quantified _ _ _ _ _ _ _ here

/-- Quantifiers are pulled over conjunctions and disjunctions only, so every condition that is
indifferent to these is kept. -/
theorem Everywhere.pullQuantifiers {condition : Formula → Prop}
    (indifferent : Indifferent condition) (everywhere : f.Everywhere condition) :
    f.pullQuantifiers.Everywhere condition :=
  indifferent.pullsTo.everywhere everywhere

/-- An atom has no quantifier to pull. -/
theorem pullQuantifiers_eq_self_of_isAtom (atom : f.isAtom = true) : f.pullQuantifiers = f := by
  cases f with
  | term t => rfl
  | literal value span => rfl
  | predicate name args span => rfl
  | _ => cases atom

theorem pullsTo_negatesAtom :
    PullsTo (fun g => g.negatesAtom = true) (fun g => g.negatesAtom = true) where
  rebindable := { group := fun _ _ _ _ _ => rfl, quantified := fun _ _ _ _ _ _ _ => rfl }
  leaf _ _ here := here
  neg argument span atom := by
    rw [pullQuantifiers_eq_self_of_isAtom atom]
    exact atom
  pulled _ _ _ _ _ _ _ _ := rfl
  unpulled _ _ _ _ _ _ := rfl
  group _ _ _ _ := rfl
  quantified _ _ _ _ _ := rfl

/-- Where nothing but atoms is negated, this stays so. -/
theorem NegationsOnAtoms.pullQuantifiers (normal : f.NegationsOnAtoms) :
    f.pullQuantifiers.NegationsOnAtoms :=
  pullsTo_negatesAtom.everywhere normal

/-!
### Conditions that are reached
-/

/-- Whether the root of a formula is a pair of parentheses directly around a quantifier. -/
def groupsQuantified : Formula → Bool
  | .group body _ => body.isQuantified
  | _ => false

/-- Whether the root of a formula is a conjunction or disjunction whose right operand starts with a
quantifier. -/
def joinsQuantified : Formula → Bool
  | .binary c _ right _ => c != .implication && right.isQuantified
  | _ => false

/-- Whether the root of a formula is a conjunction or disjunction over which quantifiers would be
pulled, were it not for the names they bind. -/
def refusesPull : Formula → Bool
  | .binary c left right _ =>
      c != .implication && right.pullQuantifiers.isQuantified &&
        !apart left.pullQuantifiers right.pullQuantifiers
  | _ => false

theorem pullsTo_groupsQuantified :
    PullsTo (fun _ => True) (fun g => g.groupsQuantified = false) where
  rebindable := { group := fun _ _ _ _ _ => rfl, quantified := fun _ _ _ _ _ _ _ => rfl }
  leaf f leaf _ := by
    cases f with
    | group body span => simp [isAtom, isEmpty] at leaf
    | _ => rfl
  neg _ _ _ := rfl
  pulled _ _ _ _ _ _ _ _ := rfl
  unpulled _ _ _ _ _ _ := rfl
  group _ _ _ plain := plain
  quantified _ _ _ _ _ := rfl

theorem everywhere_of_forall {condition : Formula → Prop} (always : ∀ g, condition g)
    (f : Formula) : f.Everywhere condition := by
  induction f with
  | neg argument span ih => exact ⟨always _, ih⟩
  | binary c left right span ihLeft ihRight => exact ⟨always _, ihLeft, ihRight⟩
  | group body span ih => exact ⟨always _, ih⟩
  | quantified q bound body span ih => exact ⟨always _, ih⟩
  | _ => exact always _

/-- Once quantifiers were pulled, no parentheses stand directly around one. -/
theorem pullQuantifiers_groupsQuantified (f : Formula) :
    f.pullQuantifiers.Everywhere fun g => g.groupsQuantified = false :=
  pullsTo_groupsQuantified.everywhere (everywhere_of_forall (fun _ => trivial) f)

/-- No quantifier comes out of parentheses that stand around none. -/
theorem isQuantified_trimRight (plain : f.isQuantified = false)
    (inside : f.groupsQuantified = false) : f.trimRight.isQuantified = false := by
  unfold trimRight
  split
  · exact plain
  · exact inside
  · rfl
  · exact plain

/-- What is left of a right operand starts with no quantifier, if no parentheses in the operand
stand directly around one. -/
theorem isQuantified_rightBody (plain : f.Everywhere fun g => g.groupsQuantified = false)
    (keep : Bool) : (f.rightBody keep).isQuantified = false := by
  cases keep with
  | true => exact isQuantified_matrix f
  | false => exact isQuantified_trimRight (isQuantified_matrix f) plain.matrix.here

theorem pullsTo_joinsQuantified :
    PullsTo (fun g => g.refusesPull = false) (fun g => g.joinsQuantified = false) where
  rebindable := { group := fun _ _ _ _ _ => rfl, quantified := fun _ _ _ _ _ _ _ => rfl }
  leaf f leaf _ := by
    cases f with
    | binary c left right span => simp [isAtom, isEmpty] at leaf
    | _ => rfl
  neg _ _ _ := rfl
  pulled c left right span keepLeft keepRight _ _ := by
    have plain := isQuantified_rightBody (pullQuantifiers_groupsQuantified right) keepRight
    simp [joinsQuantified, plain]
  unpulled c left right span unrefused unpulled := by
    simp only [refusesPull, pulls, joinsQuantified] at unrefused unpulled ⊢
    cases separate : apart left.pullQuantifiers right.pullQuantifiers with
    | true => simpa [separate] using unpulled
    | false => simpa [separate] using unrefused
  group _ _ _ _ := rfl
  quantified _ _ _ _ _ := rfl

/-- Where no pull is refused, no conjunction or disjunction of the result has a right operand that
starts with a quantifier. -/
theorem pullQuantifiers_joinsQuantified
    (unrefused : f.Everywhere fun g => g.refusesPull = false) :
    f.pullQuantifiers.Everywhere fun g => g.joinsQuantified = false :=
  pullsTo_joinsQuantified.everywhere unrefused

end PredicateLogic.Formula
