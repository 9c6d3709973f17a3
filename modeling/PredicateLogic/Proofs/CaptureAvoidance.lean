/-
Module: PredicateLogic.Proofs.CaptureAvoidance
Purpose: Renaming bound variables captures nothing and leaves every binder a name of its own.
  The names given to the binders around a place stay distinct and taken, and a name without a binder
  is none of them (`Scope.GivenFor`); with letters that are fit for the formula this carries
  alpha-equivalence through a walk (`RenamesTo.alphaIn`).  A formula whose binders have names of
  their own, none of them free, is left as it is (`rename_eq_self`), and renaming ends in such a
  formula.
Main exports: Scope.GivenFor, Formula.RenamesTo.alphaIn, Scope.ofFormula_eq_ok,
  Formula.rename_eq_ok, Formula.rename_eq_self, Formula.rename_avoids_capture
-/
import Mathlib.Control.Monad.Basic
import PredicateLogic.Proofs.AlphaEquivalence
import PredicateLogic.Proofs.RenamingWalk

namespace PredicateLogic

/-!
### Given names
-/

/-- Whether the names given around a place cannot capture anything in a formula: no two are the
same, all are taken, and a free name of the formula that no quantifier around it binds is none of
them. -/
structure Scope.GivenFor (scope : Scope) (f : Formula) : Prop where
  distinct : (scope.given.map Prod.snd).Nodup
  taken : ∀ x ∈ scope.given.map Prod.snd, x ∈ scope.taken
  uncaptured : ∀ x, f.LeavesFree x → x ∉ scope.given.map Prod.fst → x ∉ scope.given.map Prod.snd

namespace Scope.GivenFor

variable {scope : Scope}

theorem left {c : Connective} {f g : Formula} {span : Span}
    (given : scope.GivenFor (.binary c f g span)) : scope.GivenFor f := by
  refine ⟨given.distinct, given.taken, ?_⟩
  intro x free
  exact given.uncaptured x (Formula.leavesFree_binary.2 (Or.inl free))

theorem right {between : Scope} {c : Connective} {f f' g : Formula} {span : Span}
    (given : scope.GivenFor (.binary c f g span)) (walk : Formula.RenamesTo scope f f' between) :
    between.GivenFor g := by
  have same := walk.effect.given
  refine ⟨by rw [same]; exact given.distinct, ?_, ?_⟩
  · intro x member
    rw [same] at member
    exact walk.mem_taken (given.taken x member)
  · intro x free
    rw [same]
    exact given.uncaptured x (Formula.leavesFree_binary.2 (Or.inr free))

/-- Inside a quantifier the new name is none of those around it, since they are all taken, and no
variable of the body but the quantifier's own. -/
theorem body {inner : Scope} {q : Quantifier} {v : Variable} {name : String} {f : Formula}
    {span : Span} (given : scope.GivenFor (.quantified q v f span))
    (pool : scope.PoolFor (.quantified q v f span))
    (entered : scope.Entered v.name name inner) : inner.GivenFor f := by
  have untaken : name ∉ scope.taken := pool.fresh entered
  refine ⟨?_, ?_, ?_⟩
  · rw [entered.given, List.map_cons, List.nodup_cons]
    exact ⟨fun member => untaken (given.taken name member), given.distinct⟩
  · intro x member
    rw [entered.given, List.map_cons, List.mem_cons] at member
    rcases member with rfl | member
    · exact (entered.taken _).2 (Or.inr (Or.inr rfl))
    · exact (entered.taken x).2 (Or.inl (given.taken x member))
  · intro x free unbound
    rw [entered.given, List.map_cons, List.mem_cons, not_or] at unbound ⊢
    have outside : (Formula.quantified q v f span).LeavesFree x :=
      Formula.leavesFree_quantified.2 ⟨unbound.1, free⟩
    refine ⟨?_, given.uncaptured x outside unbound.2⟩
    rintro rfl
    rcases entered.choice with ⟨-, own, -⟩ | ⟨-, used⟩
    · exact unbound.1 own
    · have letter : x ∈ scope.letters := by
        rw [used]
        exact List.mem_cons_self
      exact pool.unused x letter (Formula.mem_identifiers_var.2 (Or.inl outside))

/-- A term whose occurrences the formula leaves free keeps its references. -/
theorem alphaIn_term {f : Formula} {t : Term} (given : scope.GivenFor f)
    (free : ∀ v ∈ t.occurrences, f.LeavesFree v.name) :
    t.AlphaIn scope.given (t.mapOccurrences (Variable.renameIn scope)) := by
  apply Term.alphaIn_mapOccurrences
  · intro v
    rfl
  · intro v occurs
    apply sameReference_lookup given.distinct
    exact given.uncaptured v.name (free v occurs)

end Scope.GivenFor

namespace Formula

/-- A walk gives a formula that differs from the one it was about in the names of bound variables
alone. -/
theorem RenamesTo.alphaIn {scope after : Scope} {f g : Formula}
    (walk : RenamesTo scope f g after) (pool : scope.PoolFor f) (given : scope.GivenFor f) :
    f.AlphaIn scope.given g := by
  induction walk with
  | empty => exact .empty
  | term =>
      apply AlphaIn.term
      apply given.alphaIn_term
      intro v occurs
      exact leavesFree_term.2 ⟨v, occurs, rfl⟩
  | literal => exact .literal
  | predicate =>
      apply AlphaIn.predicate
      apply Term.alphaListIn_map
      intro t member
      apply given.alphaIn_term
      intro v occurs
      exact leavesFree_predicate.2 ⟨t, member, v, occurs, rfl⟩
  | neg argument ih =>
      exact .neg (ih ⟨pool.distinct, pool.untaken, pool.unused⟩
        ⟨given.distinct, given.taken, given.uncaptured⟩)
  | binary left right ihLeft ihRight =>
      apply AlphaIn.binary (ihLeft pool.left given.left)
      have below := ihRight (pool.right left) (given.right left)
      rwa [left.effect.given] at below
  | group body ih =>
      exact .group (ih ⟨pool.distinct, pool.untaken, pool.unused⟩
        ⟨given.distinct, given.taken, given.uncaptured⟩)
  | quantified entered body ih =>
      have step := Scope.entered_of_enter entered
      have below := ih (pool.body step) (given.body pool step)
      rw [step.given] at below
      exact .quantified rfl below

end Formula

/-!
### The scope that renaming starts with
-/

theorem alphabet_nodup : alphabet.Nodup := by decide

/-- Renaming starts with nothing bound, with the free names of the formula taken, and with letters
that are neither variables nor function symbols of it. -/
theorem Scope.ofFormula_eq_ok {f : Formula} {scope : Scope} (start : ofFormula f = .ok scope) :
    Consistent f.identifiers ∧ scope.given = [] ∧ (∀ x, x ∈ scope.taken ↔ f.LeavesFree x) ∧
      scope.letters.Nodup ∧ ∀ x ∈ scope.letters, ∀ role, (x, role) ∉ f.identifiers := by
  obtain ⟨table, listed, rfl⟩ := ofFormula_eq_ok_iff.1 start
  have distinct := alphabet_nodup.filter fun letter => !table.domain.contains letter
  refine ⟨(Formula.nameTable_eq_ok listed).1, rfl, fun x => Formula.mem_freeIn listed, distinct, ?_⟩
  intro x letter role used
  have listedName : x ∈ table.domain := (Formula.mem_domain listed).2 ⟨role, used⟩
  have unlisted := (List.mem_filter.1 letter).2
  simp [listedName] at unlisted

/-- A formula in which no name has two roles can be renamed from a scope of its own. -/
theorem Scope.exists_ofFormula {f : Formula} (consistent : Consistent f.identifiers) :
    ∃ scope, ofFormula f = .ok scope := by
  obtain ⟨table, listed⟩ := Formula.exists_nameTable consistent
  exact ⟨_, ofFormula_eq_ok_iff.2 ⟨table, listed, rfl⟩⟩

namespace Formula

/-- Renaming is a walk from the scope that belongs to the formula. -/
theorem rename_eq_ok {f g : Formula} :
    f.rename = .ok g ↔
      ∃ scope after, Scope.ofFormula f = .ok scope ∧ RenamesTo scope f g after := by
  rw [rename, bind_eq_ok_iff]
  constructor
  · rintro ⟨scope, start, renamed⟩
    split at renamed
    case h_1 => cases renamed
    case h_2 walk =>
      cases renamed
      exact ⟨scope, _, start, renameIn_eq_ok_iff.1 walk⟩
  · rintro ⟨scope, after, start, walk⟩
    refine ⟨scope, start, ?_⟩
    rw [renameIn_eq_ok_iff.2 walk]
    rfl

/-- The letters that renaming starts with are fit for the formula. -/
theorem poolFor_ofFormula {f : Formula} {scope : Scope} (start : Scope.ofFormula f = .ok scope) :
    scope.PoolFor f := by
  obtain ⟨-, -, taken, distinct, unused⟩ := Scope.ofFormula_eq_ok start
  refine ⟨distinct, ?_, fun x letter => unused x letter .var⟩
  intro x letter member
  exact unused x letter .var (mem_identifiers_var.2 (Or.inl ((taken x).1 member)))

/-- Nothing is given at the start of renaming, so nothing is captured. -/
theorem givenFor_ofFormula {f : Formula} {scope : Scope} (start : Scope.ofFormula f = .ok scope) :
    scope.GivenFor f := by
  obtain ⟨-, nothing, -, -, -⟩ := Scope.ofFormula_eq_ok start
  refine ⟨by simp [nothing], by simp [nothing], ?_⟩
  intro x free unbound
  simp [nothing]

/-!
### Formulas that need no new names
-/

/-- Where every given name is the written one, the occurrences in a term stay as they are. -/
theorem mapOccurrences_renameIn_eq_self {scope : Scope} (unchanged : ∀ x, scope.nameFor x = x)
    (t : Term) : t.mapOccurrences (Variable.renameIn scope) = t := by
  induction t with
  | var v => simp [Term.mapOccurrences, Variable.renameIn, unchanged]
  | app name args span ih =>
      simp only [Term.mapOccurrences, Term.mapOccurrencesList_eq_map]
      rw [List.map_congr_left ih, List.map_id']

end Formula

/-- Whether a walk over a formula has nothing to change: the binders of the formula have names of
their own that are neither taken nor free, and every given name is the written one. -/
structure Scope.SettledFor (scope : Scope) (f : Formula) : Prop where
  distinct : f.boundNames.Nodup
  untaken : ∀ x ∈ f.boundNames, x ∉ scope.taken
  apart : ∀ x ∈ f.boundNames, ¬ f.LeavesFree x
  unchanged : ∀ x, scope.nameFor x = x

namespace Scope.SettledFor

variable {scope : Scope}

theorem left {c : Connective} {f g : Formula} {span : Span}
    (settled : scope.SettledFor (.binary c f g span)) : scope.SettledFor f := by
  have below : ∀ x ∈ f.boundNames, x ∈ (Formula.binary c f g span).boundNames := by
    intro x member
    exact List.mem_append.2 (Or.inl member)
  refine ⟨(List.nodup_append.1 settled.distinct).1, ?_, ?_, settled.unchanged⟩
  · intro x member
    exact settled.untaken x (below x member)
  · intro x member free
    exact settled.apart x (below x member) (Formula.leavesFree_binary.2 (Or.inl free))

/-- A walk over the left operand takes only names that no binder of the right one has, if it hands
out no letter. -/
theorem right {between : Scope} {c : Connective} {f g : Formula} {span : Span}
    (settled : scope.SettledFor (.binary c f g span)) (walk : Formula.RenamesTo scope f f between)
    (unused : between.letters = scope.letters) : between.SettledFor g := by
  obtain ⟨-, distinct, different⟩ := List.nodup_append.1 settled.distinct
  have below : ∀ x ∈ g.boundNames, x ∈ (Formula.binary c f g span).boundNames := by
    intro x member
    exact List.mem_append.2 (Or.inr member)
  refine ⟨distinct, ?_, ?_, ?_⟩
  · intro x member taken
    rcases (walk.mem_taken_of_letters_eq unused).1 taken with before | listed
    · exact settled.untaken x (below x member) before
    · rcases Formula.mem_identifiers_var.1 listed with free | bound
      · exact settled.apart x (below x member) (Formula.leavesFree_binary.2 (Or.inl free))
      · exact different x bound x member rfl
  · intro x member free
    exact settled.apart x (below x member) (Formula.leavesFree_binary.2 (Or.inr free))
  · intro x
    rw [nameFor, walk.effect.given]
    exact settled.unchanged x

theorem body {inner : Scope} {q : Quantifier} {v : Variable} {f : Formula} {span : Span}
    (settled : scope.SettledFor (.quantified q v f span))
    (entered : scope.Entered v.name v.name inner) : inner.SettledFor f := by
  obtain ⟨own, distinct⟩ := List.nodup_cons.1 settled.distinct
  have below : ∀ x ∈ f.boundNames, x ∈ (Formula.quantified q v f span).boundNames := by
    intro x member
    exact List.mem_cons_of_mem _ member
  refine ⟨distinct, ?_, ?_, ?_⟩
  · intro x member taken
    rcases (entered.taken x).1 taken with before | rfl | rfl
    · exact settled.untaken x (below x member) before
    · exact own member
    · exact own member
  · intro x member free
    have other : x ≠ v.name := by
      rintro rfl
      exact own member
    exact settled.apart x (below x member) (Formula.leavesFree_quantified.2 ⟨other, free⟩)
  · intro x
    rw [nameFor, entered.given, List.lookup_cons]
    by_cases same : x = v.name
    · simp [same]
    · have missed : (x == v.name) = false := by simpa using same
      simpa only [missed, nameFor] using settled.unchanged x

end Scope.SettledFor

namespace Formula

/-- A walk that has nothing to change in a formula changes nothing, and hands out no letter. -/
theorem exists_renamesTo_self {f : Formula} {scope : Scope} (settled : scope.SettledFor f) :
    ∃ after, RenamesTo scope f f after ∧ after.letters = scope.letters := by
  induction f generalizing scope with
  | empty span => exact ⟨scope, .empty, rfl⟩
  | term t =>
      have walk : RenamesTo scope (.term t) _ _ := .term
      rw [mapOccurrences_renameIn_eq_self settled.unchanged] at walk
      exact ⟨_, walk, Scope.takeAll_letters _ _⟩
  | literal value span => exact ⟨scope, .literal, rfl⟩
  | predicate name args span =>
      have walk : RenamesTo scope (.predicate name args span) _ _ := .predicate
      have same : args.map (Term.mapOccurrences (Variable.renameIn scope)) = args := by
        rw [List.map_congr_left fun t _ => mapOccurrences_renameIn_eq_self settled.unchanged t,
          List.map_id']
      rw [same] at walk
      exact ⟨_, walk, Scope.takeAll_letters _ _⟩
  | neg argument span ih =>
      obtain ⟨after, walk, unused⟩ :=
        ih ⟨settled.distinct, settled.untaken, settled.apart, settled.unchanged⟩
      exact ⟨after, .neg walk, unused⟩
  | binary c left right span ihLeft ihRight =>
      obtain ⟨between, walkLeft, unusedLeft⟩ := ihLeft settled.left
      obtain ⟨after, walkRight, unusedRight⟩ := ihRight (settled.right walkLeft unusedLeft)
      exact ⟨after, .binary walkLeft walkRight, unusedRight.trans unusedLeft⟩
  | group body span ih =>
      obtain ⟨after, walk, unused⟩ :=
        ih ⟨settled.distinct, settled.untaken, settled.apart, settled.unchanged⟩
      exact ⟨after, .group walk, unused⟩
  | quantified q v body span ih =>
      have entered := Scope.enter_of_not_mem (settled.untaken v.name List.mem_cons_self)
      obtain ⟨after, walk, unused⟩ := ih (settled.body (Scope.entered_of_enter entered))
      refine ⟨after.leave scope, .quantified entered walk, ?_⟩
      simpa [Scope.leave, Scope.push] using unused

/-- A formula whose binders have names of their own, none of them free, is left as it is. -/
theorem rename_eq_self {f : Formula} (consistent : Consistent f.identifiers)
    (distinct : f.boundNames.Nodup) (apart : ∀ x ∈ f.boundNames, ¬ f.LeavesFree x) :
    f.rename = .ok f := by
  obtain ⟨scope, start⟩ := Scope.exists_ofFormula consistent
  obtain ⟨-, nothing, taken, -, -⟩ := Scope.ofFormula_eq_ok start
  have settled : scope.SettledFor f := by
    refine ⟨distinct, ?_, apart, ?_⟩
    · intro x member
      rw [taken]
      exact apart x member
    · intro x
      simp [Scope.nameFor, nothing]
  obtain ⟨after, walk, -⟩ := exists_renamesTo_self settled
  exact rename_eq_ok.2 ⟨scope, after, start, walk⟩

/-- The result of renaming uses no name in two roles: its function symbols are those of the formula,
and its variables are free in the formula, bound in it, or letters that it does not use. -/
theorem RenamesTo.consistent {f g : Formula} {scope after : Scope}
    (start : Scope.ofFormula f = .ok scope) (walk : RenamesTo scope f g after)
    (same : f.AlphaEquivalent g) : Consistent g.identifiers := by
  obtain ⟨consistent, -, -, -, unused⟩ := Scope.ofFormula_eq_ok start
  have separate : ∀ x, (x, Role.var) ∈ g.identifiers → (x, Role.function) ∉ g.identifiers := by
    intro x asVariable asSymbol
    have symbolBefore := same.mem_identifiers_function.2 asSymbol
    have notVariable : (x, Role.var) ∉ f.identifiers := by
      intro variableBefore
      exact absurd (consistent x _ _ variableBefore symbolBefore) (by decide)
    rcases mem_identifiers_var.1 asVariable with free | bound
    · exact notVariable (mem_identifiers_var.2 (Or.inl (same.leavesFree_iff.2 free)))
    · rcases ((walk.boundNames (poolFor_ofFormula start)).2 x bound).2.2 with source | letter
      · exact notVariable (mem_identifiers_var.2 (Or.inr source))
      · exact unused x letter .function symbolBefore
  intro x r r' first second
  cases r <;> cases r'
  · rfl
  · exact absurd second (separate x first)
  · exact absurd first (separate x second)
  · rfl

/-- Renaming is capture-avoiding: its result differs from the formula in the names of bound
variables alone and has the same free names, its binders have names of their own, none of them free,
and renaming it again changes nothing, whether or not a letter is left. -/
theorem rename_avoids_capture {f g : Formula} (renamed : f.rename = .ok g) :
    f.AlphaEquivalent g ∧ (∀ x, f.LeavesFree x ↔ g.LeavesFree x) ∧ g.boundNames.Nodup ∧
      (∀ x ∈ g.boundNames, ¬ g.LeavesFree x) ∧ g.rename = .ok g := by
  obtain ⟨scope, after, start, walk⟩ := rename_eq_ok.1 renamed
  obtain ⟨-, nothing, taken, -, -⟩ := Scope.ofFormula_eq_ok start
  have same : f.AlphaEquivalent g := by
    have below := walk.alphaIn (poolFor_ofFormula start) (givenFor_ofFormula start)
    rwa [nothing] at below
  obtain ⟨distinct, names⟩ := walk.boundNames (poolFor_ofFormula start)
  have apart : ∀ x ∈ g.boundNames, ¬ g.LeavesFree x := by
    intro x member free
    exact (names x member).1 ((taken x).2 (same.leavesFree_iff.2 free))
  exact ⟨same, fun x => same.leavesFree_iff, distinct, apart,
    rename_eq_self (walk.consistent start same) distinct apart⟩

/-- `A.x (E.x P(x, a) & Q(x))`, where the inner quantifier shadows the outer one. -/
def shadowing : Formula :=
  .quantified .universal { name := "x" }
    (.group
      (.binary .conjunction
        (.quantified .existential { name := "x" }
          (.predicate "P" [.var { name := "x" }, .var { name := "a" }] .unknown) .unknown)
        (.predicate "Q" [.var { name := "x" }] .unknown) .unknown) .unknown) .unknown

/-- `A.x (E.b P(b, a) & Q(x))`: the letter `a` occurs already. -/
def unshadowed : Formula :=
  .quantified .universal { name := "x" }
    (.group
      (.binary .conjunction
        (.quantified .existential { name := "b" }
          (.predicate "P" [.var { name := "b" }, .var { name := "a" }] .unknown) .unknown)
        (.predicate "Q" [.var { name := "x" }] .unknown) .unknown) .unknown) .unknown

theorem rename_shadowing_avoids_capture :
    shadowing.rename = .ok unshadowed ∧ shadowing.AlphaEquivalent unshadowed ∧
      (∀ x, shadowing.LeavesFree x ↔ unshadowed.LeavesFree x) ∧ unshadowed.boundNames.Nodup ∧
      (∀ x ∈ unshadowed.boundNames, ¬ unshadowed.LeavesFree x) ∧
      unshadowed.rename = .ok unshadowed := by
  have renamed : shadowing.rename = .ok unshadowed := by decide +kernel
  exact ⟨renamed, rename_avoids_capture renamed⟩

end Formula

end PredicateLogic
