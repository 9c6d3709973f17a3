/-
Module: PredicateLogic.Proofs.FreshLetters
Purpose: How many fresh letters renaming needs, and when there are enough of them.
  A walk hands out one letter for each binder whose name is taken when its turn comes.  Which names
  are taken then depends on the free names and on the binders before it, and not on the letters
  handed out on the way, as long as these are fit for the formula.  So the count can be read off the
  bound names (`clashes`), and it is the number of binders less the number of different bound names
  that are not free (`clashes_add_card`).
Main exports: clashes, Formula.RenamesTo.letters_length, Formula.exists_renamesTo_iff,
  Formula.spareLetters, Formula.clashCount, Formula.exists_rename_iff,
  Formula.clashCount_eq_zero_of_rename, Formula.SameNames.clashCount_eq
-/
import Mathlib.Data.Finset.Card
import PredicateLogic.Proofs.OperationNames

namespace PredicateLogic

/-!
### Names that clash
-/

/-- How many names of a list are taken when their turn comes, from left to right, if each name is
taken from its turn on. -/
def clashes (taken : List String) : List String → Nat
  | [] => 0
  | name :: rest => (if name ∈ taken then 1 else 0) + clashes (name :: taken) rest

/-- Only those taken names count that are in the list. -/
theorem clashes_congr {taken taken' names : List String}
    (same : ∀ x ∈ names, (x ∈ taken ↔ x ∈ taken')) :
    clashes taken names = clashes taken' names := by
  induction names generalizing taken taken' with
  | nil => rfl
  | cons name rest ih =>
      have rest' : clashes (name :: taken) rest = clashes (name :: taken') rest := by
        apply ih
        intro x member
        rw [List.mem_cons, List.mem_cons, same x (List.mem_cons_of_mem name member)]
      rw [clashes, clashes, rest']
      simp only [same name List.mem_cons_self]

theorem clashes_append (taken names names' : List String) :
    clashes taken (names ++ names') = clashes taken names + clashes (names ++ taken) names' := by
  induction names generalizing taken with
  | nil => simp [clashes]
  | cons name rest ih =>
      have moved : clashes (rest ++ name :: taken) names' =
          clashes (name :: rest ++ taken) names' := by
        apply clashes_congr
        intro x _
        simp only [List.mem_append, List.mem_cons, List.cons_append]
        exact or_left_comm
      rw [List.cons_append, clashes, clashes, ih, moved, Nat.add_assoc]

/-- Each name that is not taken at the start is without a clash exactly once. -/
theorem clashes_add_card (taken names : List String) :
    clashes taken names + (names.toFinset.filter fun x => x ∉ taken).card = names.length := by
  induction names generalizing taken with
  | nil => rfl
  | cons name rest ih =>
      have others := ih (name :: taken)
      rw [clashes, List.length_cons, List.toFinset_cons]
      by_cases known : name ∈ taken
      · have same : (insert name rest.toFinset).filter (fun x => x ∉ taken) =
            rest.toFinset.filter fun x => x ∉ name :: taken := by
          ext x
          simp only [Finset.mem_filter, Finset.mem_insert, List.mem_cons, not_or]
          constructor
          · rintro ⟨rfl | member, untaken⟩
            · exact absurd known untaken
            · refine ⟨member, ?_, untaken⟩
              rintro rfl
              exact untaken known
          · rintro ⟨member, -, untaken⟩
            exact ⟨Or.inr member, untaken⟩
        rw [if_pos known, same]
        omega
      · have split : (insert name rest.toFinset).filter (fun x => x ∉ taken) =
            insert name (rest.toFinset.filter fun x => x ∉ name :: taken) := by
          ext x
          simp only [Finset.mem_filter, Finset.mem_insert, List.mem_cons, not_or]
          by_cases own : x = name
          · simp [own, known]
          · simp [own]
        have new : name ∉ rest.toFinset.filter fun x => x ∉ name :: taken := by simp
        rw [if_neg known, split, Finset.card_insert_of_notMem new]
        omega

/-!
### The letters that a walk needs
-/

/-- The free names of a formula are taken in a scope. -/
def Scope.TakesFree (scope : Scope) (f : Formula) : Prop :=
  ∀ x, f.LeavesFree x → x ∈ scope.taken

namespace Scope.TakesFree

variable {scope : Scope} {f f' g : Formula} {span : Span}

theorem left {c : Connective} (free : scope.TakesFree (.binary c f g span)) : scope.TakesFree f :=
  fun x outside => free x (Formula.leavesFree_binary.2 (Or.inl outside))

theorem right {between : Scope} {c : Connective} (free : scope.TakesFree (.binary c f g span))
    (walk : Formula.RenamesTo scope f f' between) : between.TakesFree g :=
  fun x outside => walk.mem_taken (free x (Formula.leavesFree_binary.2 (Or.inr outside)))

/-- What is free in the body of a quantifier is its variable or free outside. -/
theorem body {inner : Scope} {q : Quantifier} {v : Variable} {name : String}
    (free : scope.TakesFree (.quantified q v f span))
    (entered : scope.Entered v.name name inner) : inner.TakesFree f := by
  intro x inside
  rw [entered.taken]
  by_cases own : x = v.name
  · exact Or.inr (Or.inl own)
  · exact Or.inl (free x (Formula.leavesFree_quantified.2 ⟨own, inside⟩))

end Scope.TakesFree

/-- Inside a quantifier its variable is taken, and no letter that it was given is bound further
inside. -/
theorem Scope.PoolFor.mem_taken_entered {scope inner : Scope} {q : Quantifier} {v : Variable}
    {name : String} {f : Formula} {span : Span} (pool : scope.PoolFor (.quantified q v f span))
    (entered : scope.Entered v.name name inner) :
    ∀ x ∈ f.boundNames, (x ∈ inner.taken ↔ x ∈ v.name :: scope.taken) := by
  intro x member
  have listed : (x, Role.var) ∈ (Formula.quantified q v f span).identifiers :=
    List.mem_cons_of_mem _ (Formula.mem_identifiers_var.2 (Or.inr member))
  rw [entered.taken, List.mem_cons]
  rcases entered.choice with ⟨-, rfl, -⟩ | ⟨-, used⟩
  · tauto
  · have other : x ≠ name := by
      rintro rfl
      exact pool.unused x (by rw [used]; exact List.mem_cons_self) listed
    tauto

namespace Formula

variable {f g : Formula} {scope after : Scope}

/-- Behind a walk in which all free names were taken before, a name that is no letter of the pool
is taken if it was before or if the formula binds it. -/
theorem RenamesTo.mem_taken_iff (walk : RenamesTo scope f g after) (free : scope.TakesFree f)
    {x : String} (noLetter : x ∉ scope.letters) :
    x ∈ after.taken ↔ x ∈ f.boundNames ++ scope.taken := by
  obtain ⟨handed, split, members⟩ := walk.effect.handed
  have unhanded : x ∉ handed := by
    intro member
    exact noLetter (split ▸ List.mem_append_left _ member)
  rw [members, mem_identifiers_var, List.mem_append]
  constructor
  · rintro (before | (outside | bound) | letter)
    · exact Or.inr before
    · exact Or.inr (free x outside)
    · exact Or.inl bound
    · exact absurd letter unhanded
  · rintro (bound | before)
    · exact Or.inr (Or.inl (Or.inr bound))
    · exact Or.inl before

/-- Among the names that the right operand binds, those are taken that the left one binds as it is
written: the letters that its binders were given are bound nowhere in the formula. -/
theorem RenamesTo.mem_taken_right {between : Scope} {c : Connective} {f' : Formula} {span : Span}
    (left : RenamesTo scope f f' between) (pool : scope.PoolFor (.binary c f g span))
    (free : scope.TakesFree (.binary c f g span)) :
    ∀ x ∈ g.boundNames, (x ∈ between.taken ↔ x ∈ f.boundNames ++ scope.taken) := by
  intro x member
  apply left.mem_taken_iff free.left
  intro letter
  have listed := mem_identifiers_var.2 (Or.inr member)
  exact pool.unused x letter (List.mem_append_right _ listed)

/-- A walk hands out as many letters as there are clashes. -/
theorem RenamesTo.letters_length (walk : RenamesTo scope f g after) (pool : scope.PoolFor f)
    (free : scope.TakesFree f) :
    scope.letters.length = clashes scope.taken f.boundNames + after.letters.length := by
  induction walk with
  | neg argument ih => exact ih ⟨pool.distinct, pool.untaken, pool.unused⟩ free
  | binary left right ihLeft ihRight =>
      rw [Formula.boundNames, clashes_append, ← clashes_congr (left.mem_taken_right pool free),
        ihLeft pool.left free.left, ihRight (pool.right left) (free.right left), Nat.add_assoc]
  | group body ih => exact ih ⟨pool.distinct, pool.untaken, pool.unused⟩ free
  | quantified entered body ih =>
      have step := Scope.entered_of_enter entered
      -- A letter that is handed out here stands for the first clash, and the body has the others.
      have inside := ih (pool.body step) (free.body step)
      rw [clashes_congr (pool.mem_taken_entered step)] at inside
      rw [Formula.boundNames, clashes, Scope.leave, Nat.add_assoc, ← inside]
      rcases step.choice with ⟨untaken, -, kept⟩ | ⟨taken, used⟩
      · rw [if_neg untaken, kept, Nat.zero_add]
      · rw [if_pos taken, used, List.length_cons, Nat.add_comm]
  | _ => simp [Formula.boundNames, clashes]

/-- A quantifier can be entered as long as there is a letter in the case that it needs one. -/
theorem exists_enter {written : String}
    (enough : (if written ∈ scope.taken then 1 else 0) ≤ scope.letters.length) :
    ∃ name inner, scope.enter written = .ok (name, inner) := by
  by_cases taken : written ∈ scope.taken
  · rw [if_pos taken] at enough
    obtain ⟨name, rest, left⟩ := List.exists_cons_of_length_pos enough
    exact ⟨name, _, Scope.enter_of_mem taken left⟩
  · exact ⟨written, _, Scope.enter_of_not_mem taken⟩

/-- A walk comes to its end if there is a letter for every clash. -/
theorem exists_renamesTo (pool : scope.PoolFor f) (free : scope.TakesFree f)
    (enough : clashes scope.taken f.boundNames ≤ scope.letters.length) :
    ∃ g after, RenamesTo scope f g after := by
  induction f generalizing scope with
  | empty span => exact ⟨_, _, .empty⟩
  | term t => exact ⟨_, _, .term⟩
  | literal value span => exact ⟨_, _, .literal⟩
  | predicate name args span => exact ⟨_, _, .predicate⟩
  | neg argument span ih =>
      obtain ⟨g, after, walk⟩ := ih ⟨pool.distinct, pool.untaken, pool.unused⟩ free enough
      exact ⟨_, _, .neg walk⟩
  | binary c left right span ihLeft ihRight =>
      rw [boundNames, clashes_append] at enough
      obtain ⟨left', between, walkLeft⟩ := ihLeft pool.left free.left (by omega)
      -- The left operand uses up a letter for each of its clashes; the rest is for the right one.
      have used := walkLeft.letters_length pool.left free.left
      rw [← clashes_congr (walkLeft.mem_taken_right pool free)] at enough
      obtain ⟨right', after, walkRight⟩ :=
        ihRight (pool.right walkLeft) (free.right walkLeft) (by omega)
      exact ⟨_, _, .binary walkLeft walkRight⟩
  | group body span ih =>
      obtain ⟨g, after, walk⟩ := ih ⟨pool.distinct, pool.untaken, pool.unused⟩ free enough
      exact ⟨_, _, .group walk⟩
  | quantified q v body span ih =>
      rw [boundNames, clashes] at enough
      have room : (if v.name ∈ scope.taken then 1 else 0) ≤ scope.letters.length := by omega
      obtain ⟨name, inner, entered⟩ := exists_enter room
      have step := Scope.entered_of_enter entered
      have remaining : clashes inner.taken body.boundNames ≤ inner.letters.length := by
        rw [clashes_congr (pool.mem_taken_entered step)]
        rcases step.choice with ⟨untaken, -, kept⟩ | ⟨taken, used⟩
        · rw [if_neg untaken] at enough
          rw [kept]
          omega
        · rw [if_pos taken, used, List.length_cons] at enough
          omega
      obtain ⟨g, after, walk⟩ := ih (pool.body step) (free.body step) remaining
      exact ⟨_, _, .quantified entered walk⟩

/-!
### The letters that renaming needs
-/

/-- The letters that are no variable and no function symbol of a formula. -/
def spareLetters (f : Formula) : List String :=
  alphabet.filter fun letter => letter ∉ f.identifiers.map Prod.fst

/-- How many binders have to be renamed: all but one for each bound name that is not free. -/
def clashCount (f : Formula) : Nat :=
  f.boundNames.length - (f.boundNames.toFinset.filter fun x => ¬ f.LeavesFree x).card

/-- Renaming starts with the free names taken and with the spare letters. -/
theorem spareLetters_eq_letters (start : Scope.ofFormula f = .ok scope) :
    scope.letters = f.spareLetters := by
  obtain ⟨table, listed, rfl⟩ := Scope.ofFormula_eq_ok_iff.1 start
  apply List.filter_congr
  intro letter _
  have same : letter ∈ table.domain ↔ letter ∈ f.identifiers.map Prod.fst := by
    rw [mem_domain listed]
    simp
  simp [same]

theorem clashes_boundNames (taken : ∀ x, x ∈ scope.taken ↔ f.LeavesFree x) :
    clashes scope.taken f.boundNames = f.clashCount := by
  have count := clashes_add_card scope.taken f.boundNames
  simp only [taken] at count
  unfold clashCount
  omega

/-- A formula can be renamed exactly when no name has two roles in it and there is a spare letter
for every binder that has to be renamed. -/
theorem exists_rename_iff :
    (∃ g, f.rename = .ok g) ↔
      Consistent f.identifiers ∧ f.clashCount ≤ f.spareLetters.length := by
  constructor
  · rintro ⟨g, renamed⟩
    obtain ⟨scope, after, start, walk⟩ := rename_eq_ok.1 renamed
    obtain ⟨consistent, -, taken, -, -⟩ := Scope.ofFormula_eq_ok start
    have count := walk.letters_length (poolFor_ofFormula start) fun x free => (taken x).2 free
    rw [clashes_boundNames taken, spareLetters_eq_letters start] at count
    exact ⟨consistent, by omega⟩
  · rintro ⟨consistent, enough⟩
    obtain ⟨scope, start⟩ := Scope.exists_ofFormula consistent
    obtain ⟨-, -, taken, -, -⟩ := Scope.ofFormula_eq_ok start
    rw [← clashes_boundNames taken, ← spareLetters_eq_letters start] at enough
    obtain ⟨g, after, walk⟩ :=
      exists_renamesTo (poolFor_ofFormula start) (fun x free => (taken x).2 free) enough
    exact ⟨g, rename_eq_ok.2 ⟨scope, after, start, walk⟩⟩

/-- Binders with names of their own, none of them free, clash with nothing. -/
theorem Separated.clashCount_eq_zero (separated : f.Separated) : f.clashCount = 0 := by
  have all : (f.boundNames.toFinset.filter fun x => ¬ f.LeavesFree x) = f.boundNames.toFinset := by
    apply Finset.filter_true_of_mem
    intro x member
    exact separated.unfree x (List.mem_toFinset.1 member)
  rw [clashCount, all, List.toFinset_card_of_nodup separated.distinct, Nat.sub_self]

/-- Formulas made of the same names have the same number of clashes and the same spare letters. -/
theorem SameNames.clashCount_eq (same : f.SameNames g) : g.clashCount = f.clashCount := by
  have names : g.boundNames.toFinset = f.boundNames.toFinset := by
    ext x
    rw [List.mem_toFinset, List.mem_toFinset, same.bound.mem_iff]
  simp only [clashCount, same.bound.length_eq, names, same.free]

theorem SameNames.spareLetters_eq (same : f.SameNames g) : g.spareLetters = f.spareLetters := by
  apply List.filter_congr
  intro letter _
  simp only [(same.identifiers.map Prod.fst).mem_iff]

end Formula

end PredicateLogic
