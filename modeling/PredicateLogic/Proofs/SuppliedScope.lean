/-
Module: PredicateLogic.Proofs.SuppliedScope
Purpose: Renaming in a scope that was not made for the formula.
  Nothing in such a scope says that its letters are unused, and a walk hands them out from the front
  without a look at the names that are taken or still to come.  It never looks at the letters that
  it leaves, though (`RenamesTo.withTail`), so the result is right as soon as those it does hand out
  are neither taken before nor variables of the formula.
Main exports: Scope.withLetters, Formula.RenamesTo.withTail, Formula.renameIn_supplied,
  Formula.renameIn_supplied_captures
-/
import PredicateLogic.Proofs.CaptureAvoidance

namespace PredicateLogic

namespace Scope

/-!
### Another pool of letters
-/

/-- The scope with other letters left in it. -/
def withLetters (scope : Scope) (letters : List String) : Scope :=
  { scope with letters := letters }

variable (scope : Scope) (letters : List String)

@[simp] theorem take_withLetters (name : String) :
    (scope.withLetters letters).take name = (scope.take name).withLetters letters := by
  unfold take withLetters
  split <;> rfl

@[simp] theorem takeAll_withLetters (names : List String) :
    (scope.withLetters letters).takeAll names = (scope.takeAll names).withLetters letters := by
  unfold takeAll
  induction names generalizing scope with
  | nil => rfl
  | cons name rest ih => simp [ih]

variable {scope}

/-- A quantifier that keeps its name is entered alike with any letters. -/
theorem enter_withLetters_of_not_mem {written name : String} {inner : Scope}
    (entered : scope.enter written = .ok (name, inner)) (untaken : written ∉ scope.taken) :
    (scope.withLetters letters).enter written = .ok (name, inner.withLetters letters) := by
  rw [enter_of_not_mem untaken] at entered
  cases entered
  have kept : (scope.withLetters letters).enter written = _ := enter_of_not_mem untaken
  rw [kept, take_withLetters]
  rfl

/-- A quantifier that is given the first letter is entered alike whatever letters come behind it. -/
theorem enter_withLetters_of_mem {written name : String} {inner : Scope} {rest : List String}
    (entered : scope.enter written = .ok (name, inner)) (taken : written ∈ scope.taken)
    (left : scope.letters = name :: rest) :
    (scope.withLetters (name :: letters)).enter written =
      .ok (name, inner.withLetters letters) := by
  rw [enter_of_mem taken left] at entered
  cases entered
  have same := take_withLetters { scope with letters := rest } letters name
  have given : (scope.withLetters (name :: letters)).enter written = _ := enter_of_mem taken rfl
  rw [given]
  unfold withLetters at same ⊢
  rw [same]
  rfl

end Scope

namespace Formula

variable {f g : Formula} {scope after : Scope}

/-- A walk hands out letters from the front of the pool, and goes the same way whatever letters
there are behind those. -/
theorem RenamesTo.withTail (walk : RenamesTo scope f g after) :
    ∃ handed, scope.letters = handed ++ after.letters ∧
      ∀ tail, RenamesTo (scope.withLetters (handed ++ tail)) f g (after.withLetters tail) := by
  induction walk with
  | empty => exact ⟨[], rfl, fun tail => .empty⟩
  | term =>
      refine ⟨[], by simp, fun tail => ?_⟩
      rw [← Scope.takeAll_withLetters]
      exact .term
  | literal => exact ⟨[], rfl, fun tail => .literal⟩
  | predicate =>
      refine ⟨[], by simp, fun tail => ?_⟩
      rw [← Scope.takeAll_withLetters]
      exact .predicate
  | neg argument ih =>
      obtain ⟨handed, split, along⟩ := ih
      exact ⟨handed, split, fun tail => .neg (along tail)⟩
  | binary left right ihLeft ihRight =>
      obtain ⟨first, splitFirst, alongFirst⟩ := ihLeft
      obtain ⟨second, splitSecond, alongSecond⟩ := ihRight
      -- To the left operand the letters that the right one is given are letters behind its own.
      refine ⟨first ++ second, ?_, fun tail => ?_⟩
      · rw [splitFirst, splitSecond, List.append_assoc]
      · rw [List.append_assoc]
        exact .binary (alongFirst (second ++ tail)) (alongSecond tail)
  | group body ih =>
      obtain ⟨handed, split, along⟩ := ih
      exact ⟨handed, split, fun tail => .group (along tail)⟩
  | @quantified scope q v name inner f f' after span entered body ih =>
      obtain ⟨later, split, along⟩ := ih
      rcases (Scope.entered_of_enter entered).choice with ⟨untaken, -, kept⟩ | ⟨taken, used⟩
      · refine ⟨later, kept ▸ split, fun tail => ?_⟩
        exact .quantified (Scope.enter_withLetters_of_not_mem _ entered untaken) (along tail)
      · refine ⟨name :: later, ?_, fun tail => ?_⟩
        · rw [used, split]
          rfl
        · exact .quantified (Scope.enter_withLetters_of_mem _ entered taken used) (along tail)

/-!
### Renaming in such a scope
-/

/-- Renaming in a scope in which nothing is given yet is capture-avoiding as long as every letter
that it hands out, which is then gone from the pool, was neither taken nor a variable of the
formula: the result differs in the names of bound variables alone, and its binders have names of
their own, none of which was taken before. -/
theorem renameIn_supplied (renamed : f.renameIn scope = .ok (g, after))
    (nothing : scope.given = []) (distinct : scope.letters.Nodup)
    (unused : ∀ x ∈ scope.letters, x ∉ after.letters →
      x ∉ scope.taken ∧ (x, Role.var) ∉ f.identifiers) :
    f.AlphaEquivalent g ∧ g.boundNames.Nodup ∧ ∀ x ∈ g.boundNames, x ∉ scope.taken := by
  obtain ⟨handed, split, along⟩ := (renameIn_eq_ok_iff.1 renamed).withTail
  -- With no letters but those that are handed out the scope is as fit as one made for the formula.
  have walk := along []
  rw [List.append_nil] at walk
  rw [split, List.nodup_append] at distinct
  obtain ⟨handedDistinct, -, apart⟩ := distinct
  have fit : ∀ x ∈ handed, x ∉ scope.taken ∧ (x, Role.var) ∉ f.identifiers := by
    intro x member
    apply unused x
    · rw [split]
      exact List.mem_append_left _ member
    · intro remaining
      exact apart x member x remaining rfl
  have pool : (scope.withLetters handed).PoolFor f :=
    ⟨handedDistinct, fun x member => (fit x member).1, fun x member => (fit x member).2⟩
  have given : (scope.withLetters handed).GivenFor f := by
    refine ⟨?_, ?_, ?_⟩ <;> simp [Scope.withLetters, nothing]
  obtain ⟨ownNames, names⟩ := walk.boundNames pool
  have same := walk.alphaIn pool given
  rw [show (scope.withLetters handed).given = [] from nothing] at same
  exact ⟨same, ownNames, fun x member => (names x member).1⟩

/-- `A.x P(x, a)`, with the given name in the place of `x`. -/
def relating (bound : String) : Formula :=
  .quantified .universal { name := bound }
    (.predicate "P" [.var { name := bound }, .var { name := "a" }] .unknown) .unknown

/-- A scope in which both names are taken that occur in `A.x P(x, a)`. -/
def bothTaken (letters : List String) : Scope :=
  { taken := ["a", "x"], letters := letters }

/-- A letter that is taken does no harm in the pool as long as it is not handed out. -/
theorem renameIn_supplied_relating :
    ∃ after, (relating "x").renameIn (bothTaken ["b", "a"]) = .ok (relating "b", after) ∧
      (bothTaken ["b", "a"]).given = [] ∧ (bothTaken ["b", "a"]).letters.Nodup ∧
      (∀ x ∈ (bothTaken ["b", "a"]).letters, x ∉ after.letters →
        x ∉ (bothTaken ["b", "a"]).taken ∧ (x, Role.var) ∉ (relating "x").identifiers) ∧
      (relating "x").AlphaEquivalent (relating "b") ∧ (relating "b").boundNames.Nodup ∧
      ∀ x ∈ (relating "b").boundNames, x ∉ (bothTaken ["b", "a"]).taken := by
  let after : Scope := { taken := ["a", "x", "b"], letters := ["a"], replaced := [("x", "b")] }
  have renamed : (relating "x").renameIn (bothTaken ["b", "a"]) = .ok (relating "b", after) := by
    decide +kernel
  have distinct : (bothTaken ["b", "a"]).letters.Nodup := by decide
  have unused : ∀ x ∈ (bothTaken ["b", "a"]).letters, x ∉ after.letters →
      x ∉ (bothTaken ["b", "a"]).taken ∧ (x, Role.var) ∉ (relating "x").identifiers := by
    decide +kernel
  exact ⟨after, renamed, rfl, distinct, unused, renameIn_supplied renamed rfl distinct unused⟩

/-- From the alphabet the letter `a` is handed out first, taken or not: the new name of the bound
variable was taken, and it captures the free occurrence beside it. -/
theorem renameIn_supplied_captures :
    ∃ after, (relating "x").renameIn (bothTaken alphabet) = .ok (relating "a", after) ∧
      (bothTaken alphabet).given = [] ∧ (bothTaken alphabet).enclosing = [] ∧
      (bothTaken alphabet).letters.Nodup ∧ ¬ (relating "x").AlphaEquivalent (relating "a") ∧
      ∃ x ∈ (relating "a").boundNames, x ∈ (bothTaken alphabet).taken := by
  let after : Scope :=
    { taken := ["a", "x"], letters := alphabet.tail, replaced := [("x", "a")] }
  have renamed : (relating "x").renameIn (bothTaken alphabet) = .ok (relating "a", after) := by
    decide +kernel
  have captured : ¬ (relating "x").AlphaEquivalent (relating "a") := by
    intro same
    have free : (relating "x").LeavesFree "a" := by decide
    exact absurd (same.leavesFree_iff.1 free) (by decide)
  exact ⟨after, renamed, rfl, rfl, alphabet_nodup, captured, "a", by decide, by decide⟩

end Formula

end PredicateLogic
