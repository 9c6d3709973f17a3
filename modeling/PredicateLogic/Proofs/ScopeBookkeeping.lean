/-
Module: PredicateLogic.Proofs.ScopeBookkeeping
Purpose: What renaming leaves of the scope it is given, whatever this holds.
  Behind a renamed formula the bindings are those in front of it.  The letters that are gone from
  the pool are its first ones, and each of them stands for one binder: binders get their names in
  turn, and a binder gets a letter exactly if its name is taken when its turn comes (`NamedInTurn`).
  Where the letters do not suffice, the scope at that place is left behind, inside the quantifiers
  around it (`Formula.renameIn_stuck`).
Main exports: NamedInTurn, NamedInTurn.append, Formula.RenamesTo.namedInTurn,
  Formula.renameIn_stuck, Formula.renameIn_bookkeeping
-/
import Mathlib.Data.Set.Insert
import PredicateLogic.Proofs.Mentions
import PredicateLogic.Proofs.RenamingWalk

namespace PredicateLogic

/-!
### Names in turn
-/

/-- How the binders among mentions are named from left to right, where some names are taken in front
of them: the names of the binders, and the letters that are handed out.  What is met is taken from
then on, and a binder that meets its name taken is given the next letter instead. -/
inductive NamedInTurn : Set String → List Mention → List String → List String → Prop where
  | done {taken} : NamedInTurn taken [] [] []
  | leaf {taken v rest names letters}
      (further : NamedInTurn (insert v.name taken) rest names letters) :
      NamedInTurn taken (.leaf v :: rest) names letters
  | kept {taken v rest names letters} (untaken : v.name ∉ taken)
      (further : NamedInTurn (insert v.name taken) rest names letters) :
      NamedInTurn taken (.binder v :: rest) (v.name :: names) letters
  | renamed {taken v rest names letter letters} (clash : v.name ∈ taken)
      (further : NamedInTurn (insert letter taken) rest names letters) :
      NamedInTurn taken (.binder v :: rest) (letter :: names) (letter :: letters)

namespace NamedInTurn

variable {taken : Set String} {ms ms' : List Mention} {names names' letters letters' : List String}

/-- Leaves need no letter. -/
theorem leaves (taken : Set String) (vs : List Variable) :
    NamedInTurn taken (vs.map .leaf) [] [] := by
  induction vs generalizing taken with
  | nil => exact .done
  | cons v vs ih => exact .leaf (ih _)

theorem insert_union_met (taken : Set String) (name : String) (names letters : List String) :
    insert name taken ∪ {x | x ∈ names ∨ x ∈ letters} =
      taken ∪ {x | x ∈ name :: names ∨ x ∈ letters} := by
  ext x
  simp only [Set.mem_union, Set.mem_insert_iff, Set.mem_ofPred_eq, List.mem_cons]
  tauto

/-- What is met later meets the names taken that were met before, and the letters handed out. -/
theorem append (first : NamedInTurn taken ms names letters)
    (second : NamedInTurn (taken ∪ {x | x ∈ ms.map Mention.name ∨ x ∈ letters}) ms' names'
      letters') :
    NamedInTurn taken (ms ++ ms') (names ++ names') (letters ++ letters') := by
  induction first with
  | done => simpa using second
  | leaf further ih =>
      rw [List.map_cons, Mention.name, ← insert_union_met] at second
      exact .leaf (ih second)
  | kept untaken further ih =>
      rw [List.map_cons, Mention.name, ← insert_union_met] at second
      exact .kept untaken (ih second)
  | @renamed taken v rest names letter letters clash further ih =>
      -- The name of the binder itself was taken before, so only its letter is new.
      have same : insert letter taken ∪ {x | x ∈ rest.map Mention.name ∨ x ∈ letters} =
          taken ∪ {x | x ∈ v.name :: rest.map Mention.name ∨ x ∈ letter :: letters} := by
        ext x
        have own : x = v.name → x ∈ taken := fun same => same ▸ clash
        simp only [Set.mem_union, Set.mem_insert_iff, Set.mem_ofPred_eq, List.mem_cons]
        tauto
      rw [List.map_cons, Mention.name, ← same] at second
      exact .renamed clash (ih second)

end NamedInTurn

namespace Formula

variable {f g : Formula} {scope after left : Scope}

/-!
### Walks that come to their end
-/

/-- What is taken behind a walk is what was taken before, what it met and what it handed out. -/
theorem RenamesTo.mem_taken_iff_mentions (walk : RenamesTo scope f g after) {handed : List String}
    (split : scope.letters = handed ++ after.letters) (x : String) :
    x ∈ after.taken ↔ x ∈ scope.taken ∨ x ∈ f.mentions.map Mention.name ∨ x ∈ handed := by
  obtain ⟨handed', split', members⟩ := walk.effect.handed
  have same : handed' = handed := List.append_cancel_right (split'.symm.trans split)
  rw [members, mem_identifiers_iff, same]

/-- A walk names the binders in turn, and takes the letters for them from the front of the pool. -/
theorem RenamesTo.namedInTurn (walk : RenamesTo scope f g after) :
    ∃ handed, scope.letters = handed ++ after.letters ∧
      NamedInTurn {x | x ∈ scope.taken} f.mentions g.boundNames handed := by
  induction walk with
  | empty => exact ⟨[], rfl, .done⟩
  | term => exact ⟨[], by simp, .leaves _ _⟩
  | literal => exact ⟨[], rfl, .done⟩
  | predicate => exact ⟨[], by simp, .leaves _ _⟩
  | neg argument ih => exact ih
  | @binary scope c f f' between g g' after span left right ihLeft ihRight =>
      obtain ⟨first, splitFirst, namedFirst⟩ := ihLeft
      obtain ⟨second, splitSecond, namedSecond⟩ := ihRight
      have taken : {x | x ∈ between.taken} =
          {x | x ∈ scope.taken} ∪ {x | x ∈ f.mentions.map Mention.name ∨ x ∈ first} := by
        ext x
        exact left.mem_taken_iff_mentions splitFirst x
      rw [taken] at namedSecond
      exact ⟨first ++ second, by rw [splitFirst, splitSecond, List.append_assoc],
        namedFirst.append namedSecond⟩
  | group body ih => exact ih
  | @quantified scope q v name inner f f' after span entered body ih =>
      have step := Scope.entered_of_enter entered
      obtain ⟨later, split, named⟩ := ih
      rcases step.choice with ⟨untaken, rfl, kept⟩ | ⟨clash, used⟩
      · have taken : {x | x ∈ inner.taken} = insert v.name {x | x ∈ scope.taken} := by
          ext x
          rw [Set.mem_ofPred_eq, step.taken, Set.mem_insert_iff, Set.mem_ofPred_eq]
          tauto
        rw [taken] at named
        exact ⟨later, kept ▸ split, .kept untaken named⟩
      · have taken : {x | x ∈ inner.taken} = insert name {x | x ∈ scope.taken} := by
          ext x
          have own : x = v.name → x ∈ scope.taken := fun same => same ▸ clash
          rw [Set.mem_ofPred_eq, step.taken, Set.mem_insert_iff, Set.mem_ofPred_eq]
          tauto
        rw [taken] at named
        exact ⟨name :: later, by rw [used, split]; rfl, .renamed clash named⟩

/-!
### Walks that get stuck
-/

/-- A walk gets stuck where no letter is left, inside the quantifiers that it has entered by
then. -/
theorem renameIn_stuck (stuck : f.renameIn scope = .error left) :
    left.letters = [] ∧ scope.enclosing <+: left.enclosing := by
  induction f generalizing scope with
  | neg argument span ih => exact ih (renameIn_neg_eq_error.1 stuck)
  | binary c f g span ihLeft ihRight =>
      rcases renameIn_binary_eq_error.1 stuck with first | ⟨newLeft, between, first, second⟩
      · exact ihLeft first
      · have within := ihRight second
        rwa [(renameIn_restores first).2] at within
  | group body span ih => exact ih (renameIn_group_eq_error.1 stuck)
  | quantified q v body span ih =>
      rcases renameIn_quantified_eq_error.1 stuck with
        ⟨⟨error, unchosen⟩, rfl⟩ | ⟨name, next, chosen, inner⟩
      · obtain ⟨-, -, nothing⟩ := Scope.choose_eq_error_iff.1 unchosen
        exact ⟨nothing, List.prefix_refl _⟩
      · obtain ⟨nothing, within⟩ := ih inner
        have outside := (Scope.chosen_of_choose chosen).enclosing
        rw [Scope.bindName, outside] at within
        exact ⟨nothing, (List.prefix_append _ _).trans within⟩
  | _ => cases stuck

/-!
### The bookkeeping as a whole
-/

/-- Renaming in any scope whatever leaves the bindings as they were, hands out letters from the
front of the pool, one for each binder that meets its name taken, and takes besides these what the
formula mentions.  If it fails, then with no letter left, inside quantifiers that came on top of
those around the formula. -/
theorem renameIn_bookkeeping (f : Formula) (scope : Scope) :
    (∀ g after, f.renameIn scope = .ok (g, after) →
      after.enclosing = scope.enclosing ∧ after.given = scope.given ∧
        ∃ handed, scope.letters = handed ++ after.letters ∧
          NamedInTurn {x | x ∈ scope.taken} f.mentions (g.binders.map Variable.name) handed ∧
          ∀ x, x ∈ after.taken ↔ x ∈ scope.taken ∨ (∃ v ∈ f.leaves, v.name = x) ∨
            (∃ v ∈ f.binders, v.name = x) ∨ x ∈ handed) ∧
      ∀ left, f.renameIn scope = .error left →
        left.letters = [] ∧ scope.enclosing <+: left.enclosing := by
  constructor
  · intro g after run
    obtain ⟨given, enclosing⟩ := renameIn_restores run
    have walk := renameIn_eq_ok_iff.1 run
    obtain ⟨handed, split, named⟩ := walk.namedInTurn
    rw [← names_binders] at named
    refine ⟨enclosing, given, handed, split, named, ?_⟩
    intro x
    rw [walk.mem_taken_iff_mentions split, mem_names_mentions, or_assoc]
  · intro left stuck
    exact renameIn_stuck stuck

/-- `A.x (P(x) & E.x Q(x)) & R(x)`, with the given names in the place of `x`: that of the outer
binder, that of the inner one, and that of the occurrence outside. -/
def boundTwice (outer inner outside : String) : Formula :=
  .binary .conjunction
    (.quantified .universal { name := outer }
      (.group
        (.binary .conjunction (.predicate "P" [.var { name := outer }] .unknown)
          (.quantified .existential { name := inner }
            (.predicate "Q" [.var { name := inner }] .unknown) .unknown) .unknown) .unknown)
      .unknown)
    (.predicate "R" [.var { name := outside }] .unknown) .unknown

/-- A scope inside a quantifier whose variable `x` was given the name `k`. -/
def belowGiven (letters : List String) : Scope :=
  { taken := ["x"], enclosing := ["k"], given := [("x", "k")], letters := letters }

/-- Both binders of `x` are given a letter, and `x` stands for `k` again behind them.  With one
letter the walk gets stuck at the inner binder. -/
theorem renameIn_bookkeeping_boundTwice :
    (∃ after, (boundTwice "x" "x" "x").renameIn (belowGiven ["a", "b", "c"]) =
        .ok (boundTwice "a" "b" "k", after) ∧
      after.enclosing = ["k"] ∧ after.given = [("x", "k")] ∧
      ∃ handed, ["a", "b", "c"] = handed ++ after.letters ∧
        NamedInTurn {x | x ∈ ["x"]} (boundTwice "x" "x" "x").mentions ["a", "b"] handed) ∧
    ∃ left, (boundTwice "x" "x" "x").renameIn (belowGiven ["a"]) = .error left ∧
      left.letters = [] ∧ ["k"] <+: left.enclosing := by
  constructor
  · let after : Scope :=
      { taken := ["x", "a", "b"], enclosing := ["k"], given := [("x", "k")], letters := ["c"],
        replaced := [("x", "a"), ("x", "b")] }
    have run : (boundTwice "x" "x" "x").renameIn (belowGiven ["a", "b", "c"]) =
        .ok (boundTwice "a" "b" "k", after) := by
      decide +kernel
    obtain ⟨enclosing, given, handed, split, named, -⟩ := (renameIn_bookkeeping _ _).1 _ _ run
    exact ⟨after, run, enclosing, given, handed, split, named⟩
  · let left : Scope :=
      { taken := ["x", "a"], enclosing := ["k", "a"], given := [("x", "a")], letters := [],
        replaced := [("x", "a")] }
    have stuck : (boundTwice "x" "x" "x").renameIn (belowGiven ["a"]) = .error left := by
      decide +kernel
    exact ⟨left, stuck, (renameIn_bookkeeping _ _).2 _ stuck⟩

end Formula

end PredicateLogic
