/-
Module: PredicateLogic.Proofs.RenamingWalk
Purpose: What a walk that renames bound variables does to the scope it carries along.
  `RenamesTo` says node by node how a walk goes, and is the same as the function that walks
  (`renameIn_eq_ok_iff`).  A walk leaves the bindings around it as they were, hands out letters from
  the front of the pool, and takes the variables of the formula and the letters it handed out
  (`RenamesTo.effect`).  As long as the pool holds no letter twice, none that is taken and no
  variable of the formula (`Scope.PoolFor`), every binder of the result has a name that was not
  taken before and is taken afterwards, so no two binders share a name (`RenamesTo.boundNames`).
Main exports: Formula.RenamesTo, Formula.renameIn_eq_ok_iff, Scope.Entered, Scope.entered_of_enter,
  Formula.Walked, Formula.RenamesTo.effect, Scope.PoolFor, Formula.RenamesTo.boundNames
-/
import Mathlib.Tactic.Tauto
import PredicateLogic.Proofs.BoundNames
import PredicateLogic.Proofs.NestedBindings

namespace PredicateLogic

namespace Scope

/-!
### Entering a quantifier
-/

/-- What entering a quantifier does: its variable is given a name, which is taken from then on, and
this is the name that was written unless that is taken already, else the first letter left. -/
structure Entered (scope : Scope) (written name : String) (inner : Scope) : Prop where
  given : inner.given = (written, name) :: scope.given
  enclosing : inner.enclosing = scope.enclosing ++ [name]
  taken : ∀ x, x ∈ inner.taken ↔ x ∈ scope.taken ∨ x = written ∨ x = name
  choice : (written ∉ scope.taken ∧ name = written ∧ inner.letters = scope.letters) ∨
    (written ∈ scope.taken ∧ scope.letters = name :: inner.letters)

theorem entered_of_enter {scope inner : Scope} {written name : String}
    (entered : scope.enter written = .ok (name, inner)) : scope.Entered written name inner := by
  obtain ⟨next, chosen, rfl⟩ := enter_eq_ok.1 entered
  have step := chosen_of_choose chosen
  exact ⟨by rw [push, step.given], by rw [push, step.enclosing], step.taken, step.choice⟩

/-- A quantifier whose variable is not taken keeps its name. -/
theorem enter_of_not_mem {scope : Scope} {written : String} (untaken : written ∉ scope.taken) :
    scope.enter written = .ok (written, (scope.take written).push written written) := by
  unfold enter choose
  rw [if_neg (by simpa using untaken)]
  rfl

/-- A quantifier whose variable is taken is given the first letter. -/
theorem enter_of_mem {scope : Scope} {written name : String} {rest : List String}
    (taken : written ∈ scope.taken) (left : scope.letters = name :: rest) :
    scope.enter written =
      .ok (name,
        { ({ scope with letters := rest } : Scope).take name with
          replaced := (({ scope with letters := rest } : Scope).take name).replaced ++
            [(written, name)] }.push written name) := by
  unfold enter choose takeLetter
  rw [if_pos (by simpa using taken), left]
  rfl

end Scope

namespace Formula

/-!
### Walks
-/

/-- One walk over a formula: the scope in front of it, the formula, the renamed formula, and the
scope behind it. -/
inductive RenamesTo : Scope → Formula → Formula → Scope → Prop where
  | empty {scope span} : RenamesTo scope (.empty span) (.empty span) scope
  | term {scope t} :
      RenamesTo scope (.term t) (.term (t.mapOccurrences (Variable.renameIn scope)))
        (scope.takeAll (occurrenceNames [t]))
  | literal {scope value span} :
      RenamesTo scope (.literal value span) (.literal value span) scope
  | predicate {scope name args span} :
      RenamesTo scope (.predicate name args span)
        (.predicate name (args.map (Term.mapOccurrences (Variable.renameIn scope))) span)
        (scope.takeAll (occurrenceNames args))
  | neg {scope f f' after span} (argument : RenamesTo scope f f' after) :
      RenamesTo scope (.neg f span) (.neg f' span) after
  | binary {scope c f f' between g g' after span} (left : RenamesTo scope f f' between)
      (right : RenamesTo between g g' after) :
      RenamesTo scope (.binary c f g span) (.binary c f' g' span) after
  | group {scope f f' after span} (body : RenamesTo scope f f' after) :
      RenamesTo scope (.group f span) (.group f' span) after
  | quantified {scope q v name inner f f' after span}
      (entered : scope.enter v.name = .ok (name, inner)) (body : RenamesTo inner f f' after) :
      RenamesTo scope (.quantified q v f span)
        (.quantified q { v with name := name } f' span) (after.leave scope)

/-!
### The effect on the scope
-/

/-- What a walk over a formula leaves of a scope: the bindings as they were, the letters without
some from the front, and as taken names the old ones, the variables of the formula and the letters
that were handed out. -/
structure Walked (f : Formula) (before after : Scope) : Prop where
  given : after.given = before.given
  enclosing : after.enclosing = before.enclosing
  handed : ∃ letters, before.letters = letters ++ after.letters ∧
    ∀ x, x ∈ after.taken ↔ x ∈ before.taken ∨ (x, Role.var) ∈ f.identifiers ∨ x ∈ letters

/-- A walk over occurrences takes their names and does nothing else. -/
theorem walked_takeAll {f : Formula} {scope : Scope} {names : List String}
    (same : ∀ x, x ∈ names ↔ (x, Role.var) ∈ f.identifiers) :
    f.Walked scope (scope.takeAll names) := by
  refine ⟨by simp, by simp, [], by simp, ?_⟩
  intro x
  simp [Scope.mem_takeAll, same]

/-- A walk leaves the bindings of a scope alone, and only takes what it has to. -/
theorem RenamesTo.effect {scope after : Scope} {f g : Formula}
    (walk : RenamesTo scope f g after) : f.Walked scope after := by
  induction walk with
  | empty => exact ⟨rfl, rfl, [], by simp, by simp [identifiers]⟩
  | term =>
      apply walked_takeAll
      intro x
      simp [occurrenceNames, identifiers, Term.mem_identifiers_var]
  | literal => exact ⟨rfl, rfl, [], by simp, by simp [identifiers]⟩
  | predicate =>
      apply walked_takeAll
      intro x
      rw [identifiers, Term.mem_flatMap_identifiers_var, occurrenceNames, List.mem_map]
  | neg argument ih => exact ⟨ih.given, ih.enclosing, ih.handed⟩
  | binary left right ihLeft ihRight =>
      obtain ⟨first, lettersFirst, takenFirst⟩ := ihLeft.handed
      obtain ⟨second, lettersSecond, takenSecond⟩ := ihRight.handed
      refine ⟨ihRight.given.trans ihLeft.given, ihRight.enclosing.trans ihLeft.enclosing,
        first ++ second, ?_, ?_⟩
      · rw [lettersFirst, lettersSecond, List.append_assoc]
      · intro x
        rw [takenSecond, takenFirst]
        simp only [identifiers, List.mem_append]
        tauto
  | group body ih => exact ⟨ih.given, ih.enclosing, ih.handed⟩
  | quantified entered body ih =>
      have step := Scope.entered_of_enter entered
      obtain ⟨later, lettersLater, takenLater⟩ := ih.handed
      refine ⟨rfl, rfl, ?_⟩
      simp only [Scope.leave, identifiers, List.mem_cons, Prod.mk.injEq, and_true]
      -- The first letter handed out is the new name of the quantifier's variable, if it has one.
      rcases step.choice with ⟨-, rfl, kept⟩ | ⟨clash, used⟩
      · refine ⟨later, by rw [← kept, lettersLater], ?_⟩
        intro x
        rw [takenLater, step.taken]
        tauto
      · refine ⟨_ :: later, by rw [used, lettersLater, List.cons_append], ?_⟩
        intro x
        rw [takenLater, step.taken, List.mem_cons]
        tauto

/-!
### The walk as a function
-/

theorem renameIn_withGiven {scope : Scope} {given : List (String × String)}
    (same : ∀ x, given.lookup x = scope.given.lookup x) :
    Variable.renameIn (scope.withGiven given) = Variable.renameIn scope := by
  funext v
  simp only [Variable.renameIn, Scope.nameFor_withGiven same]

/-- Where the names given around a place are found in a stack as well, the walk goes by the rules
with that stack. -/
theorem renamesTo_of_renameIn {scope after : Scope} {f g : Formula}
    (run : f.renameIn scope = .ok (g, after)) {stack : List (String × String)}
    (same : ∀ x, stack.lookup x = scope.given.lookup x) :
    RenamesTo (scope.withGiven stack) f g (after.withGiven stack) := by
  induction f generalizing scope g after stack with
  | empty span =>
      cases run
      exact .empty
  | term t =>
      cases run
      rw [← renameIn_withGiven same, ← Scope.takeAll_withGiven]
      exact .term
  | literal value span =>
      cases run
      exact .literal
  | predicate name args span =>
      cases run
      rw [← renameIn_withGiven same, ← Scope.takeAll_withGiven]
      exact .predicate
  | neg argument span ih =>
      obtain ⟨argument', inner, rfl⟩ := renameIn_neg_eq_ok.1 run
      exact .neg (ih inner same)
  | binary c left right span ihLeft ihRight =>
      obtain ⟨newLeft, between, newRight, first, second, rfl⟩ := renameIn_binary_eq_ok.1 run
      have restored := (renameIn_restores first).1
      exact .binary (ihLeft first same) (ihRight second fun x => by rw [same, restored])
  | group body span ih =>
      obtain ⟨body', inner, rfl⟩ := renameIn_group_eq_ok.1 run
      exact .group (ih inner same)
  | quantified q v body span ih =>
      obtain ⟨name, next, body', last, chosen, inner, rfl, rfl⟩ := renameIn_quantified_eq_ok.1 run
      have step := Scope.chosen_of_choose chosen
      have entered := Scope.enter_eq_ok.2
        ⟨_, (Scope.choose_withGiven scope stack v.name).trans (by rw [chosen]; rfl), rfl⟩
      -- On the stack the new binding hides the one that is overwritten.
      have hidden : ∀ x, ((v.name, name) :: stack).lookup x =
          (next.bindName v.name name).given.lookup x := by
        intro x
        rw [Scope.lookup_cons_binding, Scope.bindName, Scope.lookup_assign, step.given, same]
      obtain ⟨restored, enclosing⟩ := renameIn_restores inner
      have whole : RenamesTo (scope.withGiven stack) (.quantified q v body span) _ _ :=
        .quantified entered (ih inner hidden)
      rw [Scope.release_eq_leave restored enclosing]
      simpa only [Scope.leave, Scope.withGiven, step.enclosing] using whole

/-- Where the stack of a walk by the rules holds the names given around a place, the function goes
the same way. -/
theorem RenamesTo.renameIn {scope after : Scope} {f g : Formula} (walk : RenamesTo scope f g after)
    {given : List (String × String)} (same : ∀ x, given.lookup x = scope.given.lookup x) :
    f.renameIn (scope.withGiven given) = .ok (g, after.withGiven given) := by
  induction walk generalizing given with
  | empty => rfl
  | term => rw [Formula.renameIn, renameIn_withGiven same, Scope.takeAll_withGiven]
  | literal => rfl
  | predicate => rw [Formula.renameIn, renameIn_withGiven same, Scope.takeAll_withGiven]
  | neg argument ih => exact renameIn_neg_eq_ok.2 ⟨_, ih same, rfl⟩
  | binary left right ihLeft ihRight =>
      have between : ∀ x, given.lookup x = _ := fun x => by rw [same, ← left.effect.given]
      exact renameIn_binary_eq_ok.2 ⟨_, _, _, ihLeft same, ihRight between, rfl⟩
  | group body ih => exact renameIn_group_eq_ok.2 ⟨_, ih same, rfl⟩
  | @quantified scope q v name inner f f' after span entered body ih =>
      obtain ⟨next, chosen, rfl⟩ := Scope.enter_eq_ok.1 entered
      have step := Scope.chosen_of_choose chosen
      have chosen' : (scope.withGiven given).choose v.name = .ok (name, next.withGiven given) :=
        (Scope.choose_withGiven scope given v.name).trans (by rw [chosen]; rfl)
      have hidden : ∀ x, (Scope.assign v.name name given).lookup x =
          (next.push v.name name).given.lookup x := by
        intro x
        rw [Scope.push, Scope.lookup_cons_binding, Scope.lookup_assign, step.given, same]
      have inside : f.renameIn ((next.withGiven given).bindName v.name name) =
          .ok (f', after.withGiven (Scope.assign v.name name given)) := ih hidden
      obtain ⟨restored, enclosing⟩ := renameIn_restores inside
      refine renameIn_quantified_eq_ok.2 ⟨_, _, _, _, chosen', inside, rfl, ?_⟩
      rw [Scope.release_eq_leave restored enclosing]
      simp only [Scope.leave, Scope.withGiven, step.enclosing]

/-- A walk as a function succeeds along the rules of a walk and with their results. -/
theorem renameIn_eq_ok_iff {scope after : Scope} {f g : Formula} :
    f.renameIn scope = .ok (g, after) ↔ RenamesTo scope f g after := by
  constructor
  · intro run
    have walk := renamesTo_of_renameIn run fun _ => rfl
    rwa [Scope.withGiven_eq_self rfl, Scope.withGiven_eq_self (renameIn_restores run).1] at walk
  · intro walk
    have run := walk.renameIn fun _ => rfl
    rwa [Scope.withGiven_eq_self rfl, Scope.withGiven_eq_self walk.effect.given] at run

theorem RenamesTo.mem_taken {scope after : Scope} {f g : Formula}
    (walk : RenamesTo scope f g after) {x : String} (taken : x ∈ scope.taken) :
    x ∈ after.taken := by
  obtain ⟨letters, -, members⟩ := walk.effect.handed
  exact (members x).2 (Or.inl taken)

/-- A walk that hands out no letter takes the variables of the formula and nothing else. -/
theorem RenamesTo.mem_taken_of_letters_eq {scope after : Scope} {f g : Formula}
    (walk : RenamesTo scope f g after) (unused : after.letters = scope.letters) {x : String} :
    x ∈ after.taken ↔ x ∈ scope.taken ∨ (x, Role.var) ∈ f.identifiers := by
  obtain ⟨letters, split, members⟩ := walk.effect.handed
  have none : letters = [] := by
    rw [unused] at split
    exact List.self_eq_append_left.1 split
  simp [members, none]

end Formula

/-!
### Fresh letters
-/

/-- Whether the letters of a scope can be handed out in a walk over a formula: none is there twice,
none is taken, and none is a variable of the formula. -/
structure Scope.PoolFor (scope : Scope) (f : Formula) : Prop where
  distinct : scope.letters.Nodup
  untaken : ∀ x ∈ scope.letters, x ∉ scope.taken
  unused : ∀ x ∈ scope.letters, (x, Role.var) ∉ f.identifiers

namespace Scope.PoolFor

variable {scope : Scope}

theorem left {c : Connective} {f g : Formula} {span : Span}
    (pool : scope.PoolFor (.binary c f g span)) : scope.PoolFor f := by
  refine ⟨pool.distinct, pool.untaken, ?_⟩
  intro x letter listed
  exact pool.unused x letter (List.mem_append.2 (Or.inl listed))

/-- The letters that a walk over the left operand leaves are fit for the right one. -/
theorem right {between : Scope} {c : Connective} {f f' g : Formula} {span : Span}
    (pool : scope.PoolFor (.binary c f g span)) (walk : Formula.RenamesTo scope f f' between) :
    between.PoolFor g := by
  obtain ⟨handed, letters, taken⟩ := walk.effect.handed
  have distinct := pool.distinct
  rw [letters] at distinct
  have left : ∀ x ∈ between.letters, x ∈ scope.letters := by
    intro x letter
    rw [letters]
    exact List.mem_append.2 (Or.inr letter)
  refine ⟨(List.nodup_append.1 distinct).2.1, ?_, ?_⟩
  · intro x letter member
    rcases (taken x).1 member with before | listed | used
    · exact pool.untaken x (left x letter) before
    · exact pool.unused x (left x letter) (List.mem_append.2 (Or.inl listed))
    · exact (List.nodup_append.1 distinct).2.2 x used x letter rfl
  · intro x letter listed
    exact pool.unused x (left x letter) (List.mem_append.2 (Or.inr listed))

/-- The letters that are left inside a quantifier are fit for its body. -/
theorem body {inner : Scope} {q : Quantifier} {v : Variable} {name : String} {f : Formula}
    {span : Span} (pool : scope.PoolFor (.quantified q v f span))
    (entered : scope.Entered v.name name inner) : inner.PoolFor f := by
  have own : (v.name, Role.var) ∈ (Formula.quantified q v f span).identifiers :=
    List.mem_cons_self
  have below : ∀ x, (x, Role.var) ∈ f.identifiers →
      (x, Role.var) ∈ (Formula.quantified q v f span).identifiers := by
    intro x listed
    exact List.mem_cons_of_mem _ listed
  rcases entered.choice with ⟨-, rfl, kept⟩ | ⟨-, used⟩
  · refine ⟨by rw [kept]; exact pool.distinct, ?_, ?_⟩
    · intro x letter taken
      rw [kept] at letter
      rcases (entered.taken x).1 taken with before | rfl | rfl
      · exact pool.untaken x letter before
      · exact pool.unused _ letter own
      · exact pool.unused _ letter own
    · intro x letter listed
      rw [kept] at letter
      exact pool.unused x letter (below x listed)
  · have distinct := pool.distinct
    rw [used, List.nodup_cons] at distinct
    have left : ∀ x ∈ inner.letters, x ∈ scope.letters := by
      intro x letter
      rw [used]
      exact List.mem_cons_of_mem name letter
    refine ⟨distinct.2, ?_, ?_⟩
    · intro x letter taken
      rcases (entered.taken x).1 taken with before | rfl | rfl
      · exact pool.untaken x (left x letter) before
      · exact pool.unused _ (left _ letter) own
      · exact distinct.1 letter
    · intro x letter listed
      exact pool.unused x (left x letter) (below x listed)

/-- The name that a quantifier's variable is given was not taken. -/
theorem fresh {inner : Scope} {q : Quantifier} {v : Variable} {name : String} {f : Formula}
    {span : Span} (pool : scope.PoolFor (.quantified q v f span))
    (entered : scope.Entered v.name name inner) : name ∉ scope.taken := by
  rcases entered.choice with ⟨untaken, rfl, -⟩ | ⟨-, used⟩
  · exact untaken
  · exact pool.untaken name (by rw [used]; exact List.mem_cons_self)

end Scope.PoolFor

/-- Every binder of the result has a name of its own, which was not taken before the walk and is
taken after it, and which is a bound name of the formula or a letter of the pool. -/
theorem Formula.RenamesTo.boundNames {scope after : Scope} {f g : Formula}
    (walk : RenamesTo scope f g after) (pool : scope.PoolFor f) :
    g.boundNames.Nodup ∧ ∀ x ∈ g.boundNames,
      x ∉ scope.taken ∧ x ∈ after.taken ∧ (x ∈ f.boundNames ∨ x ∈ scope.letters) := by
  induction walk with
  | neg argument ih => exact ih ⟨pool.distinct, pool.untaken, pool.unused⟩
  | @binary scope c f f' between g g' after span left right ihLeft ihRight =>
      obtain ⟨distinctLeft, namesLeft⟩ := ihLeft pool.left
      obtain ⟨distinctRight, namesRight⟩ := ihRight (pool.right left)
      have apart : ∀ x ∈ f'.boundNames, ∀ y ∈ g'.boundNames, x ≠ y := by
        rintro x first y second rfl
        exact (namesRight x second).1 (namesLeft x first).2.1
      refine ⟨List.nodup_append.2 ⟨distinctLeft, distinctRight, apart⟩, ?_⟩
      intro x member
      rcases List.mem_append.1 member with first | second
      · obtain ⟨untaken, taken, source⟩ := namesLeft x first
        refine ⟨untaken, right.mem_taken taken, ?_⟩
        rcases source with bound | letter
        · exact Or.inl (List.mem_append.2 (Or.inl bound))
        · exact Or.inr letter
      · obtain ⟨untaken, taken, source⟩ := namesRight x second
        refine ⟨fun before => untaken (left.mem_taken before), taken, ?_⟩
        rcases source with bound | letter
        · exact Or.inl (List.mem_append.2 (Or.inr bound))
        · obtain ⟨handed, letters, -⟩ := left.effect.handed
          exact Or.inr (by rw [letters]; exact List.mem_append.2 (Or.inr letter))
  | group body ih => exact ih ⟨pool.distinct, pool.untaken, pool.unused⟩
  | @quantified scope q v name inner f f' after span entered body ih =>
      have step := Scope.entered_of_enter entered
      obtain ⟨distinct, names⟩ := ih (pool.body step)
      have ownTaken : name ∈ inner.taken := (step.taken name).2 (Or.inr (Or.inr rfl))
      refine ⟨List.nodup_cons.2 ⟨fun member => (names name member).1 ownTaken, distinct⟩, ?_⟩
      intro x member
      rcases List.mem_cons.1 member with rfl | inside
      · refine ⟨pool.fresh step, body.mem_taken ownTaken, ?_⟩
        rcases step.choice with ⟨-, rfl, -⟩ | ⟨-, used⟩
        · exact Or.inl List.mem_cons_self
        · exact Or.inr (by rw [used]; exact List.mem_cons_self)
      · obtain ⟨untaken, taken, source⟩ := names x inside
        refine ⟨fun before => untaken ((step.taken x).2 (Or.inl before)), taken, ?_⟩
        rcases source with bound | letter
        · exact Or.inl (List.mem_cons_of_mem _ bound)
        · rcases step.choice with ⟨-, -, kept⟩ | ⟨-, used⟩
          · exact Or.inr (kept ▸ letter)
          · exact Or.inr (by rw [used]; exact List.mem_cons_of_mem _ letter)
  | _ => exact ⟨List.nodup_nil, by intro x member; cases member⟩

end PredicateLogic
