/-
Module: PredicateLogic.Proofs.MarkedOccurrences
Purpose: Marking free occurrences before an operation or after it comes to the same.
  Marks are set on the way down, from the names bound around a place, and the operations carry them
  along.  So all that can change a mark is another row of binders around an occurrence, and marks
  depend on the names bound around a formula only as far as it leaves them free (`mark_congr`).
  Pulled quantifiers pass over no name that is free beside them, and the names that renaming gives
  to binders capture none (`RenamesTo.mark`).
Main exports: Formula.mark_congr, Formula.negate_mark, Formula.negationNormal_mark,
  Formula.implicationFree_mark, Formula.pullQuantifiers_mark, Formula.RenamesTo.mark,
  Formula.rename_mark, Operation.transform_mark
-/
import PredicateLogic.Proofs.OperationNames

namespace PredicateLogic

/-!
### Marks and what they leave alone
-/

/-- Whether an occurrence is marked as free depends on whether its name is bound. -/
theorem Variable.mark_congr {bound bound' : List String} {v : Variable}
    (same : v.name ∈ bound ↔ v.name ∈ bound') : v.mark bound = v.mark bound' := by
  simp [Variable.mark, Variable.isFree, same]

namespace Term

/-- Marking changes no name, so it leaves alone what depends on names. -/
theorem hasFree_mark (bound inner : List String) (name : String) (t : Term) :
    (t.mapOccurrences (Variable.mark bound)).hasFree name inner = t.hasFree name inner := by
  simp only [hasFree, occurrences_mapOccurrences, List.any_map]
  rfl

theorem span_mark (bound : List String) (t : Term) :
    (t.mapOccurrences (Variable.mark bound)).span = t.span := by
  cases t <;> rfl

/-- Changes that agree on the occurrences in a term give the same term. -/
theorem mapOccurrences_congr {change change' : Variable → Variable} {t : Term}
    (same : ∀ v ∈ t.occurrences, change v = change' v) :
    t.mapOccurrences change = t.mapOccurrences change' := by
  induction t with
  | var v => exact congrArg Term.var (same v List.mem_cons_self)
  | app name args span ih =>
      simp only [occurrences, occurrencesList_eq_flatMap, List.mem_flatMap] at same
      simp only [mapOccurrences, mapOccurrencesList_eq_map]
      apply congrArg (app name · span)
      apply List.map_congr_left
      intro t member
      exact ih t member fun v occurs => same v ⟨t, member, occurs⟩

/-- Two changes one after the other are one change. -/
theorem mapOccurrences_mapOccurrences (change change' : Variable → Variable) (t : Term) :
    (t.mapOccurrences change).mapOccurrences change' = t.mapOccurrences (change' ∘ change) := by
  induction t with
  | var v => rfl
  | app name args span ih =>
      have each : args.map (mapOccurrences change' ∘ mapOccurrences change) =
          args.map (mapOccurrences (change' ∘ change)) := List.map_congr_left ih
      simp only [mapOccurrences, mapOccurrencesList_eq_map, List.map_map, each]

end Term

/-- The binder with its variable marked as bound. -/
def Binder.mark (b : Binder) : Binder :=
  { b with bound := { b.bound with free := some false } }

namespace Formula

variable {f g : Formula} {bound : List String}

theorem hasFree_mark (f : Formula) (bound inner : List String) (name : String) :
    (f.mark bound).hasFree name inner = f.hasFree name inner := by
  induction f generalizing bound inner with
  | term t => exact t.hasFree_mark bound inner name
  | predicate p args span =>
      simp only [mark_predicate, hasFree_predicate, List.any_map, Function.comp_def,
        Term.hasFree_mark]
  | neg argument span ih => exact ih bound inner
  | binary c left right span ihLeft ihRight =>
      simp only [mark_binary, hasFree_binary, ihLeft, ihRight]
  | group body span ih => exact ih bound inner
  | quantified q v body span ih => exact ih _ _
  | _ => rfl

/-- Marks depend on the names bound around a formula as far as the formula leaves them free. -/
theorem mark_congr {bound' : List String}
    (same : ∀ x, f.LeavesFree x → (x ∈ bound ↔ x ∈ bound')) : f.mark bound = f.mark bound' := by
  induction f generalizing bound bound' with
  | term t =>
      apply congrArg Formula.term
      apply Term.mapOccurrences_congr
      intro v occurs
      exact Variable.mark_congr (same v.name (leavesFree_term.2 ⟨v, occurs, rfl⟩))
  | predicate name args span =>
      apply congrArg (Formula.predicate name · span)
      apply List.map_congr_left
      intro t member
      apply Term.mapOccurrences_congr
      intro v occurs
      exact Variable.mark_congr
        (same v.name (leavesFree_predicate.2 ⟨t, member, v, occurs, rfl⟩))
  | neg argument span ih => exact congrArg (Formula.neg · span) (ih same)
  | binary c left right span ihLeft ihRight =>
      have sameLeft := ihLeft fun x free => same x (leavesFree_binary.2 (Or.inl free))
      have sameRight := ihRight fun x free => same x (leavesFree_binary.2 (Or.inr free))
      rw [mark_binary, mark_binary, sameLeft, sameRight]
  | group body span ih => exact congrArg (Formula.group · span) (ih same)
  | quantified q v body span ih =>
      have sameBody : body.mark (bound ++ [v.name]) = body.mark (bound' ++ [v.name]) := by
        apply ih
        intro x free
        rw [List.mem_append, List.mem_append]
        by_cases own : x = v.name
        · simp [own]
        · simp [own, same x (leavesFree_quantified.2 ⟨own, free⟩)]
      rw [mark_quantified, mark_quantified, sameBody]
  | _ => rfl

/-- The order in which names are bound does not matter. -/
theorem mark_cons (f : Formula) (name : String) (bound : List String) :
    f.mark (name :: bound) = f.mark (bound ++ [name]) := by
  apply mark_congr
  intro x _
  exact (List.perm_append_singleton name bound).mem_iff.symm

/-!
### Negations and implications
-/

theorem negate_mark (f : Formula) (bound : List String) :
    (f.mark bound).negate = f.negate.mark bound := by
  fun_induction Formula.negate f generalizing bound with
  | case2 t => simp [negate, Term.span_mark]
  | case11 q v body span ungrouped ih =>
      -- A body that is no group is none when it is marked.
      have own : ((Formula.quantified q v body span).mark bound).negate =
          .quantified q.dual { v with free := some false }
            (body.mark (bound ++ [v.name])).negate span := by
        cases body with
        | group inside inner => exact absurd rfl (ungrouped inside inner)
        | _ => rfl
      rw [own, ih, mark_quantified]
  | _ => simp_all [negate]

theorem core_mark (f : Formula) (bound : List String) :
    (f.mark bound).core = f.core.mark bound := by
  induction f with
  | neg argument span ih => exact ih
  | _ => rfl

theorem runLength_mark (f : Formula) (bound : List String) :
    (f.mark bound).runLength = f.runLength := by
  induction f with
  | neg argument span ih => exact congrArg (· + 1) ih
  | _ => rfl

theorem isAtom_mark (f : Formula) (bound : List String) : (f.mark bound).isAtom = f.isAtom := by
  cases f <;> rfl

theorem negationNormal_mark (f : Formula) (bound : List String) :
    (f.mark bound).negationNormal = f.negationNormal.mark bound := by
  fun_induction Formula.negationNormal f generalizing bound with
  | case1 argument span odd ih =>
      rw [mark_neg, negationNormal, runLength_mark, if_pos odd, core_mark, ih]
  | case2 argument span even atom =>
      rw [mark_neg, negationNormal, runLength_mark, if_neg even, core_mark, isAtom_mark,
        if_pos atom, mark_neg]
  | case3 argument span even compound ih =>
      rw [mark_neg, negationNormal, runLength_mark, if_neg even, core_mark, isAtom_mark,
        if_neg compound, negate_mark, ih]
  | case4 c left right span ihLeft ihRight =>
      rw [mark_binary, negationNormal, ihLeft, ihRight, mark_binary]
  | case5 body span ih => rw [mark_group, negationNormal, ih, mark_group]
  | case6 q v body span ih => rw [mark_quantified, negationNormal, ih, mark_quantified]
  | case7 f notNeg notBinary notGroup notQuantified =>
      cases f with
      | neg argument span => exact absurd rfl (notNeg argument span)
      | binary c left right span => exact absurd rfl (notBinary c left right span)
      | group body span => exact absurd rfl (notGroup body span)
      | quantified q v body span => exact absurd rfl (notQuantified q v body span)
      | _ => simp [negationNormal]

theorem implicationFree_mark (f : Formula) (bound : List String) :
    (f.mark bound).implicationFree = f.implicationFree.mark bound := by
  induction f generalizing bound with
  | neg argument span ih => exact congrArg (Formula.neg · span) (ih bound)
  | binary c left right span ihLeft ihRight =>
      cases c with
      | implication =>
          rw [mark_binary, implicationFree, ihLeft, ihRight, negate_mark, implicationFree,
            mark_binary]
      | conjunction | disjunction => simp [implicationFree, ihLeft, ihRight]
  | group body span ih => exact congrArg (Formula.group · span) (ih bound)
  | quantified q v body span ih => exact congrArg (Formula.quantified q _ · span) (ih _)
  | _ => rfl

/-!
### Quantifiers
-/

theorem leadingBinders_mark (f : Formula) (bound : List String) :
    (f.mark bound).leadingBinders = f.leadingBinders.map Binder.mark := by
  induction f generalizing bound with
  | quantified q v body span ih =>
      rw [mark_quantified, leadingBinders, ih, leadingBinders, List.map_cons, Binder.mark]
  | _ => rfl

theorem leadingNames_mark (f : Formula) (bound : List String) :
    (f.mark bound).leadingNames = f.leadingNames := by
  rw [leadingNames, leadingBinders_mark, List.map_map]
  rfl

/-- Below the binders at the front their names are bound, too. -/
theorem matrix_mark (f : Formula) (bound : List String) :
    (f.mark bound).matrix = f.matrix.mark (bound ++ f.leadingNames) := by
  induction f generalizing bound with
  | quantified q v body span ih =>
      simp only [mark_quantified, matrix, ih, leadingNames, leadingBinders, List.map_cons,
        List.append_assoc, List.singleton_append]
  | _ => exact congrArg (Formula.mark · _) (List.append_nil bound).symm

theorem bindAll_mark (bs : List Binder) (f : Formula) (bound : List String) :
    (bindAll bs f).mark bound =
      bindAll (bs.map Binder.mark) (f.mark (bound ++ bs.map fun b => b.bound.name)) := by
  induction bs generalizing bound with
  | nil => exact congrArg (Formula.mark · f) (List.append_nil bound).symm
  | cons b bs ih =>
      simp only [bindAll_cons, mark_quantified, ih, List.map_cons, List.append_assoc,
        List.singleton_append, Binder.mark]

theorem trimLeft_mark (f : Formula) (bound : List String) :
    (f.mark bound).trimLeft = f.trimLeft.mark bound := by
  cases f with
  | group body span => cases body <;> rfl
  | _ => rfl

theorem trimRight_mark (f : Formula) (bound : List String) :
    (f.mark bound).trimRight = f.trimRight.mark bound := by
  cases f with
  | group body span =>
    cases body with
    | binary c left right inner => cases c <;> rfl
    | _ => rfl
  | binary c left right span => cases c <;> rfl
  | _ => rfl

theorem leftBody_mark (f : Formula) (bound : List String) (keep : Bool) :
    (f.mark bound).leftBody keep = (f.leftBody keep).mark (bound ++ f.leadingNames) := by
  cases keep with
  | true => exact matrix_mark f bound
  | false =>
      rw [leftBody, matrix_mark]
      exact trimLeft_mark _ _

theorem rightBody_mark (f : Formula) (bound : List String) (keep : Bool) :
    (f.mark bound).rightBody keep = (f.rightBody keep).mark (bound ++ f.leadingNames) := by
  cases keep with
  | true => exact matrix_mark f bound
  | false =>
      rw [rightBody, matrix_mark]
      exact trimRight_mark _ _

theorem isQuantified_mark (f : Formula) (bound : List String) :
    (f.mark bound).isQuantified = f.isQuantified := by
  cases f <;> rfl

theorem isGroup_mark (f : Formula) (bound : List String) : (f.mark bound).isGroup = f.isGroup := by
  cases f <;> rfl

theorem pulls_mark (c : Connective) (left right : Formula) (bound : List String) :
    pulls c (left.mark bound) (right.mark bound) = pulls c left right := by
  have sameLeft := leadingNames_mark left bound
  have sameRight := leadingNames_mark right bound
  simp only [leadingNames] at sameLeft sameRight
  simp only [pulls, apart, isQuantified_mark, sameLeft, sameRight, hasFree_mark]

/-- More binders around a formula do not change its marks if they bind no name that it leaves free
but those that are bound around it already. -/
theorem mark_widen {names wider : List String} (inside : names ⊆ wider)
    (own : ∀ x ∈ wider, f.LeavesFree x → x ∈ names) (bound : List String) :
    f.mark (bound ++ names) = f.mark (bound ++ wider) := by
  apply mark_congr
  intro x free
  simp only [List.mem_append]
  exact or_congr_right ⟨fun member => inside member, fun member => own x member free⟩

/-- Operands that keep apart are marked below the binders of both as they are below their own: a
binder of the other operand binds no name that an operand has free below its own binders. -/
theorem joinBound_mark {left right : Formula} (c : Connective) (separate : apart left right = true)
    (keepLeft keepRight : Bool) (bound : List String) :
    joinBound c keepLeft keepRight (left.mark bound) (right.mark bound) =
      (joinBound c keepLeft keepRight left right).mark bound := by
  obtain ⟨-, unusedLeft, unusedRight⟩ := apart_eq_true.1 separate
  have names : ((left.leadingBinders ++ right.leadingBinders).map fun b => b.bound.name) =
      left.leadingNames ++ right.leadingNames := List.map_append
  have sameLeft : (left.leftBody keepLeft).mark (bound ++ left.leadingNames) =
      (left.leftBody keepLeft).mark (bound ++ (left.leadingNames ++ right.leadingNames)) := by
    apply mark_widen (List.subset_append_left _ _)
    intro x member free
    rw [apply_leftBody (fun g => g.LeavesFree x) (fun _ _ => rfl)] at free
    by_contra outside
    -- A name that only the right binders bind would be free in the left operand as a whole.
    have other := (List.mem_append.1 member).resolve_left outside
    exact unusedLeft x other (leavesFree_iff_matrix.2 ⟨outside, free⟩)
  have sameRight : (right.rightBody keepRight).mark (bound ++ right.leadingNames) =
      (right.rightBody keepRight).mark (bound ++ (left.leadingNames ++ right.leadingNames)) := by
    apply mark_widen (List.subset_append_right _ _)
    intro x member free
    rw [apply_rightBody (fun g => g.LeavesFree x) (fun _ _ => rfl)] at free
    by_contra outside
    have other := (List.mem_append.1 member).resolve_right outside
    exact unusedRight x other (leavesFree_iff_matrix.2 ⟨outside, free⟩)
  rw [joinBound_eq, joinBound_eq, bindAll_mark, names, leadingBinders_mark, leadingBinders_mark,
    leftBody_mark, rightBody_mark, sameLeft, sameRight, List.map_append, mark_group, mark_binary]

theorem pullQuantifiers_mark (f : Formula) (bound : List String) :
    (f.mark bound).pullQuantifiers = f.pullQuantifiers.mark bound := by
  induction f generalizing bound with
  | neg argument span ih => exact congrArg (Formula.neg · span) (ih bound)
  | binary c left right span ihLeft ihRight =>
      simp only [mark_binary, pullQuantifiers, ihLeft, ihRight, pulls_mark, isGroup_mark]
      split
      case isTrue allowed => exact joinBound_mark c (pulls_eq_true.1 allowed).2.2 _ _ bound
      case isFalse => exact mark_binary.symm
  | group body span ih =>
      simp only [mark_group, pullQuantifiers, ih, isQuantified_mark]
      split
      case isTrue => rfl
      case isFalse => rfl
  | quantified q v body span ih => exact congrArg (Formula.quantified q _ · span) (ih _)
  | _ => rfl

end Formula

/-!
### New names
-/

/-- Of two names that stand for the same thing, one is bound exactly when the other is. -/
theorem SameReference.mem_iff {binders : List (String × String)} {x y : String}
    (same : SameReference binders x y) : x ∈ binders.map Prod.fst ↔ y ∈ binders.map Prod.snd := by
  induction binders with
  | nil => simp
  | cons pair outer ih =>
      rw [List.map_cons, List.map_cons, List.mem_cons, List.mem_cons]
      rcases same with ⟨hx, hy⟩ | ⟨hx, hy, same⟩
      · exact iff_of_true (Or.inl hx) (Or.inl hy)
      · simp [hx, hy, ih same]

/-- An occurrence that is renamed is free below the given names exactly when it was free below the
written ones. -/
theorem Scope.GivenFor.renameIn_mark {scope : Scope} {f : Formula} (given : scope.GivenFor f)
    {v : Variable} (free : f.LeavesFree v.name) :
    (v.mark (scope.given.map Prod.fst)).renameIn scope =
      (v.renameIn scope).mark (scope.given.map Prod.snd) := by
  have same : SameReference scope.given v.name (scope.nameFor v.name) :=
    sameReference_lookup given.distinct (given.uncaptured v.name free)
  simp [Variable.mark, Variable.renameIn, Variable.isFree, same.mem_iff]

/-- A term of which all occurrences are free in a formula is marked and renamed in either order. -/
theorem Scope.GivenFor.mapOccurrences_mark {scope : Scope} {f : Formula}
    (given : scope.GivenFor f) {t : Term} (free : ∀ v ∈ t.occurrences, f.LeavesFree v.name) :
    (t.mapOccurrences (Variable.mark (scope.given.map Prod.fst))).mapOccurrences
        (Variable.renameIn scope) =
      (t.mapOccurrences (Variable.renameIn scope)).mapOccurrences
        (Variable.mark (scope.given.map Prod.snd)) := by
  rw [Term.mapOccurrences_mapOccurrences, Term.mapOccurrences_mapOccurrences]
  apply Term.mapOccurrences_congr
  intro v occurs
  exact given.renameIn_mark (free v occurs)

theorem occurrenceNames_mark (bound : List String) (terms : List Term) :
    occurrenceNames (terms.map (Term.mapOccurrences (Variable.mark bound))) =
      occurrenceNames terms := by
  simp only [occurrenceNames, List.flatMap_map, Term.occurrences_mapOccurrences, List.map_flatMap,
    List.map_map]
  rfl

namespace Formula

variable {f g : Formula} {scope after : Scope}

/-- A walk over a marked formula goes as the walk over the formula, and leads to the marked
result: below the binders around a place the written names are bound before, and the given ones
after. -/
theorem RenamesTo.mark (walk : RenamesTo scope f g after) (pool : scope.PoolFor f)
    (given : scope.GivenFor f) :
    RenamesTo scope (f.mark (scope.given.map Prod.fst)) (g.mark (scope.given.map Prod.snd))
      after := by
  induction walk with
  | empty => exact .empty
  | @term scope t =>
      have walk : RenamesTo scope ((Formula.term t).mark (scope.given.map Prod.fst)) _ _ := .term
      rw [given.mapOccurrences_mark fun v occurs => leavesFree_term.2 ⟨v, occurs, rfl⟩] at walk
      rwa [← List.map_singleton, occurrenceNames_mark] at walk
  | literal => exact .literal
  | @predicate scope name args span =>
      have walk : RenamesTo scope
        ((Formula.predicate name args span).mark (scope.given.map Prod.fst)) _ _ := .predicate
      have each : args.map (Term.mapOccurrences (Variable.renameIn scope) ∘
            Term.mapOccurrences (Variable.mark (scope.given.map Prod.fst))) =
          args.map (Term.mapOccurrences (Variable.mark (scope.given.map Prod.snd)) ∘
            Term.mapOccurrences (Variable.renameIn scope)) := by
        apply List.map_congr_left
        intro t member
        apply given.mapOccurrences_mark
        intro v occurs
        exact leavesFree_predicate.2 ⟨t, member, v, occurs, rfl⟩
      rwa [List.map_map, each, ← List.map_map, occurrenceNames_mark] at walk
  | neg argument ih =>
      exact .neg (ih ⟨pool.distinct, pool.untaken, pool.unused⟩
        ⟨given.distinct, given.taken, given.uncaptured⟩)
  | binary left right ihLeft ihRight =>
      have below := ihRight (pool.right left) (given.right left)
      rw [left.effect.given] at below
      rw [mark_binary, mark_binary]
      exact .binary (ihLeft pool.left given.left) below
  | group body ih =>
      exact .group (ih ⟨pool.distinct, pool.untaken, pool.unused⟩
        ⟨given.distinct, given.taken, given.uncaptured⟩)
  | quantified entered body ih =>
      have step := Scope.entered_of_enter entered
      have below := ih (pool.body step) (given.body pool step)
      rw [step.given, List.map_cons, List.map_cons, mark_cons, mark_cons] at below
      rw [mark_quantified, mark_quantified]
      exact .quantified entered below

/-- Where a walk over a marked formula comes to its end, so does one over the formula. -/
theorem exists_renamesTo_of_mark {bound : List String} {marked : Formula}
    (walk : RenamesTo scope (f.mark bound) marked after) :
    ∃ g, RenamesTo scope f g after := by
  induction f generalizing bound scope after marked with
  | empty span =>
      cases walk
      exact ⟨_, .empty⟩
  | term t =>
      cases walk
      rw [← List.map_singleton, occurrenceNames_mark]
      exact ⟨_, .term⟩
  | literal value span =>
      cases walk
      exact ⟨_, .literal⟩
  | predicate name args span =>
      cases walk
      rw [occurrenceNames_mark]
      exact ⟨_, .predicate⟩
  | neg argument span ih =>
      cases walk with
      | neg inner =>
          obtain ⟨g, renamed⟩ := ih inner
          exact ⟨_, .neg renamed⟩
  | binary c left right span ihLeft ihRight =>
      cases walk with
      | binary first second =>
          obtain ⟨g, renamed⟩ := ihLeft first
          obtain ⟨g', renamed'⟩ := ihRight second
          exact ⟨_, .binary renamed renamed'⟩
  | group body span ih =>
      cases walk with
      | group inner =>
          obtain ⟨g, renamed⟩ := ih inner
          exact ⟨_, .group renamed⟩
  | quantified q v body span ih =>
      cases walk with
      | quantified entered inner =>
          obtain ⟨g, renamed⟩ := ih inner
          exact ⟨_, .quantified entered renamed⟩

theorem nameTable_mark (f : Formula) : (f.mark []).nameTable = f.nameTable := by
  rw [nameTable, identifiers_mark, nameTable]

theorem ofFormula_mark (f : Formula) : Scope.ofFormula (f.mark []) = Scope.ofFormula f := by
  simp only [Scope.ofFormula, nameTable_mark, freeIn, hasFree_mark]

/-- Renaming fails for a marked formula as it fails for the formula, and otherwise leads to the
marked result. -/
theorem rename_mark (f : Formula) : (f.mark []).rename = f.rename.map (Formula.mark []) := by
  cases renamed : f.rename with
  | ok g =>
      obtain ⟨scope, after, start, walk⟩ := rename_eq_ok.1 renamed
      obtain ⟨-, nothing, -, -, -⟩ := Scope.ofFormula_eq_ok start
      have marked := walk.mark (poolFor_ofFormula start) (givenFor_ofFormula start)
      rw [nothing] at marked
      exact rename_eq_ok.2 ⟨scope, after, (ofFormula_mark f).trans start, marked⟩
  | error e =>
      have start := ofFormula_mark f
      rcases rename_eq_error.1 renamed with refused | ⟨scope, left, started, stuck, rfl⟩
      · exact rename_eq_error.2 (Or.inl (start.trans refused))
      · -- A walk over the marked formula would give one over the formula itself.
        cases run : (f.mark []).renameIn scope with
        | error left' => exact rename_eq_error.2 (Or.inr ⟨_, _, start.trans started, run, rfl⟩)
        | ok result =>
            obtain ⟨g, walk⟩ := exists_renamesTo_of_mark (renameIn_eq_ok_iff.1 run)
            cases stuck.symm.trans (renameIn_eq_ok_iff.2 walk)

end Formula

/-!
### One operation
-/

namespace Operation

/-- No operation changes which occurrences are free: the marked formula is led to the marked result,
and what was free before is free afterwards and nothing else, so the question for the free
variables has the same answer. -/
theorem transform_mark (operation : Operation) (f : Formula) :
    operation.transform (f.mark []) = (operation.transform f).map (Formula.mark []) ∧
      ∀ g, operation.transform f = .ok g →
        (∀ x, f.LeavesFree x ↔ g.LeavesFree x) ∧
        ∀ names, f.freeVariables = .ok names →
          ∃ names', g.freeVariables = .ok names' ∧ ∀ x, x ∈ names ↔ x ∈ names' := by
  constructor
  · cases operation with
    | negate => exact congrArg Except.ok (f.negate_mark [])
    | negationNormal => exact congrArg Except.ok (f.negationNormal_mark [])
    | implicationFree => exact congrArg Except.ok (f.implicationFree_mark [])
    | pullQuantifiers => exact congrArg Except.ok (f.pullQuantifiers_mark [])
    | rename => exact f.rename_mark
    | print | nameTable | freeVariables => rfl
  · intro g ran
    refine ⟨leavesFree_of_transform ran, ?_⟩
    intro names answer
    obtain ⟨consistent, listed⟩ := Formula.freeVariables_eq_ok answer
    obtain ⟨names', answer'⟩ :=
      Formula.exists_freeVariables ((consistent_of_transform ran).1 consistent)
    refine ⟨names', answer', ?_⟩
    intro x
    rw [listed, (Formula.freeVariables_eq_ok answer').2]
    exact leavesFree_of_transform ran x

theorem transform_mark_shadowing :
    transform .rename Formula.shadowing = .ok Formula.unshadowed ∧
      transform .rename (Formula.shadowing.mark []) = .ok (Formula.unshadowed.mark []) ∧
      (∀ x, Formula.shadowing.LeavesFree x ↔ Formula.unshadowed.LeavesFree x) ∧
      Formula.shadowing.freeVariables = .ok ["a"] ∧
      ∃ names, Formula.unshadowed.freeVariables = .ok names ∧ ∀ x, x ∈ ["a"] ↔ x ∈ names := by
  have renamed : transform .rename Formula.shadowing = .ok Formula.unshadowed := by
    decide +kernel
  have answer : Formula.shadowing.freeVariables = .ok ["a"] := by decide +kernel
  obtain ⟨marked, kept⟩ := transform_mark .rename Formula.shadowing
  obtain ⟨free, answers⟩ := kept Formula.unshadowed renamed
  rw [renamed] at marked
  exact ⟨renamed, marked, free, answer, answers ["a"] answer⟩

end Operation

end PredicateLogic
