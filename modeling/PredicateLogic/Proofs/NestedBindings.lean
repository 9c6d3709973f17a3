/-
Module: PredicateLogic.Proofs.NestedBindings
Purpose: What quantifiers do to the bindings of a scope, on the way in and on the way out.
  A quantifier overwrites the name given to its variable and puts it back at its end, or takes it
  out if there was none; a walk over a formula therefore leaves the bindings as it found them
  (`Formula.renameIn_restores`).  For what lies below a quantifier, only look-ups count, so the
  bindings may as well be kept as a stack, with those of the innermost quantifier on top
  (`Scope.enter`, `Scope.leave`, `Scope.release_eq_leave`).  What a walk does at each node is told
  once (`Formula.renameIn_quantified_eq_ok` and its like).
Main exports: Scope.Chosen, Scope.chosen_of_choose, Scope.lookup_assign, Scope.enter, Scope.leave,
  Scope.release_eq_leave, Scope.withGiven, Formula.renameIn_binary_eq_ok,
  Formula.renameIn_quantified_eq_ok, Formula.renameIn_quantified_eq_error, Formula.rename_eq_error,
  Formula.renameIn_restores
-/
import PredicateLogic.Proofs.FallibleSteps
import PredicateLogic.Renaming.Basic

namespace PredicateLogic

namespace Scope

/-!
### Taking names
-/

@[simp] theorem take_given (scope : Scope) (name : String) :
    (scope.take name).given = scope.given := by
  unfold take
  split <;> rfl

@[simp] theorem take_enclosing (scope : Scope) (name : String) :
    (scope.take name).enclosing = scope.enclosing := by
  unfold take
  split <;> rfl

@[simp] theorem take_letters (scope : Scope) (name : String) :
    (scope.take name).letters = scope.letters := by
  unfold take
  split <;> rfl

@[simp] theorem take_replaced (scope : Scope) (name : String) :
    (scope.take name).replaced = scope.replaced := by
  unfold take
  split <;> rfl

@[simp] theorem takeAll_given (scope : Scope) (names : List String) :
    (scope.takeAll names).given = scope.given := by
  unfold takeAll
  induction names generalizing scope with
  | nil => rfl
  | cons name rest ih => simp [ih]

@[simp] theorem takeAll_enclosing (scope : Scope) (names : List String) :
    (scope.takeAll names).enclosing = scope.enclosing := by
  unfold takeAll
  induction names generalizing scope with
  | nil => rfl
  | cons name rest ih => simp [ih]

@[simp] theorem takeAll_letters (scope : Scope) (names : List String) :
    (scope.takeAll names).letters = scope.letters := by
  unfold takeAll
  induction names generalizing scope with
  | nil => rfl
  | cons name rest ih => simp [ih]

@[simp] theorem takeAll_replaced (scope : Scope) (names : List String) :
    (scope.takeAll names).replaced = scope.replaced := by
  unfold takeAll
  induction names generalizing scope with
  | nil => rfl
  | cons name rest ih => simp [ih]

/-!
### Choosing a name
-/

/-- What choosing a name for the variable of a quantifier does: the name is taken from then on, and
it is the one that was written unless that is taken already, else the first letter left. -/
structure Chosen (scope : Scope) (written name : String) (next : Scope) : Prop where
  given : next.given = scope.given
  enclosing : next.enclosing = scope.enclosing
  taken : ∀ x, x ∈ next.taken ↔ x ∈ scope.taken ∨ x = written ∨ x = name
  choice : (written ∉ scope.taken ∧ name = written ∧ next.letters = scope.letters) ∨
    (written ∈ scope.taken ∧ scope.letters = name :: next.letters)

theorem chosen_of_choose {scope next : Scope} {written name : String}
    (chosen : scope.choose written = .ok (name, next)) : scope.Chosen written name next := by
  unfold choose at chosen
  split at chosen
  case isTrue known =>
    have taken : written ∈ scope.taken := by simpa using known
    unfold takeLetter at chosen
    split at chosen
    case h_1 => cases chosen
    case h_2 letter rest left =>
      cases chosen
      refine ⟨by simp, by simp, ?_, Or.inr ⟨taken, by simp [left]⟩⟩
      intro x
      simp only [mem_take]
      constructor
      · rintro (member | rfl)
        · exact Or.inl member
        · exact Or.inr (Or.inr rfl)
      · rintro (member | rfl | rfl)
        · exact Or.inl member
        · exact Or.inl taken
        · exact Or.inr rfl
  case isFalse unknown =>
    have untaken : written ∉ scope.taken := by simpa using unknown
    cases chosen
    refine ⟨by simp, by simp, ?_, Or.inl ⟨untaken, rfl, by simp⟩⟩
    intro x
    simp [mem_take]

/-- There is no name to choose exactly when the written one is taken and no letter is left. -/
theorem choose_eq_error_iff {scope : Scope} {written : String} {error : NamingError} :
    scope.choose written = .error error ↔
      error = .exhausted ∧ written ∈ scope.taken ∧ scope.letters = [] := by
  simp only [choose, takeLetter, bind, Except.bind, pure, Except.pure]
  split
  case isTrue known =>
    have taken : written ∈ scope.taken := by simpa using known
    cases left : scope.letters with
    | nil => simp [taken, eq_comm]
    | cons letter rest => simp
  case isFalse unknown =>
    have untaken : written ∉ scope.taken := by simpa using unknown
    simp [untaken]

/-!
### Names put in and back
-/

/-- A name that is assigned is found under what it is assigned to, and all others as before. -/
theorem lookup_assign (written name x : String) (given : List (String × String)) :
    (assign written name given).lookup x =
      if x = written then some name else given.lookup x := by
  induction given with
  | nil => by_cases own : x = written <;> simp [assign, own]
  | cons entry rest ih =>
      obtain ⟨key, value⟩ := entry
      rw [assign]
      by_cases own : x = key
      · subst own
        by_cases here : written = x
        · simp [here]
        · simp [here, Ne.symm here]
      · have further : (x == key) = false := by simpa using own
        by_cases here : written = key
        · simp [here, List.lookup_cons, own, further]
        · simp [here, List.lookup_cons, further, ih]

/-- What had no name has none again when the one it was given is taken out. -/
theorem unassign_assign {written : String} {given : List (String × String)}
    (absent : given.lookup written = none) (name : String) :
    unassign written (assign written name given) = given := by
  induction given with
  | nil => simp [assign, unassign]
  | cons entry rest ih =>
      have other : (written == entry.1) = false := by
        simpa using List.lookup_eq_none_iff.1 absent entry List.mem_cons_self
      have further : rest.lookup written = none := by
        rwa [List.lookup_cons, other] at absent
      simp only [unassign] at ih
      simp [assign, unassign, other, ih further]

/-- What had a name has it again when it is put back. -/
theorem assign_assign {written old : String} {given : List (String × String)}
    (present : given.lookup written = some old) (name : String) :
    assign written old (assign written name given) = given := by
  induction given with
  | nil => cases present
  | cons entry rest ih =>
      cases here : written == entry.1 with
      | true =>
          rw [List.lookup_cons, here] at present
          cases present
          simp [assign, here]
      | false =>
          rw [List.lookup_cons, here] at present
          simp [assign, here, ih present]

/-!
### Bindings as a stack
-/

/-- The scope inside a quantifier, with its binding on top of those further out. -/
def push (scope : Scope) (written name : String) : Scope :=
  { scope with
    given := (written, name) :: scope.given
    enclosing := scope.enclosing ++ [name] }

/-- The topmost binding of a name hides those below it. -/
theorem lookup_cons_binding (written name x : String) (given : List (String × String)) :
    ((written, name) :: given).lookup x = if x = written then some name else given.lookup x := by
  rw [List.lookup_cons]
  by_cases own : x = written
  · simp [own]
  · have other : (x == written) = false := by simpa using own
    simp only [other, if_neg own]

/-- The name that the variable of a quantifier is given, and the scope inside the quantifier with
its binding on top. -/
def enter (scope : Scope) (written : String) : Except NamingError (String × Scope) :=
  (scope.choose written).map fun (name, next) => (name, next.push written name)

/-- The scope behind a quantifier, with the bindings of the scope in front of it. -/
def leave (scope outer : Scope) : Scope :=
  { scope with given := outer.given, enclosing := outer.enclosing }

theorem enter_eq_ok {scope inner : Scope} {written name : String} :
    scope.enter written = .ok (name, inner) ↔
      ∃ next, scope.choose written = .ok (name, next) ∧ inner = next.push written name := by
  unfold enter
  cases scope.choose written with
  | error e => simp [Except.map]
  | ok chosen =>
      obtain ⟨name', next⟩ := chosen
      simp only [Except.map, Except.ok.injEq, Prod.mk.injEq]
      constructor
      · rintro ⟨rfl, rfl⟩
        exact ⟨next, ⟨rfl, rfl⟩, rfl⟩
      · rintro ⟨_, ⟨rfl, rfl⟩, rfl⟩
        exact ⟨rfl, rfl⟩

/-- Behind a quantifier whose binding is still in its place everything is bound as in front of
it. -/
theorem release_eq_leave {scope inner : Scope} {written name : String}
    (given : inner.given = assign written name scope.given)
    (enclosing : inner.enclosing = scope.enclosing ++ [name]) :
    inner.release written (scope.given.lookup written) = inner.leave scope := by
  unfold release leave
  rw [given, enclosing, List.dropLast_concat]
  cases shadowed : scope.given.lookup written with
  | none => simp only [unassign_assign shadowed]
  | some old => simp only [assign_assign shadowed]

/-!
### Scopes that differ in their bindings alone
-/

/-- The scope with other names given to the names of the text. -/
def withGiven (scope : Scope) (given : List (String × String)) : Scope :=
  { scope with given := given }

theorem withGiven_eq_self {scope : Scope} {given : List (String × String)}
    (same : scope.given = given) : scope.withGiven given = scope := by
  subst same
  rfl

section

variable (scope : Scope) (given : List (String × String))

theorem take_withGiven (name : String) :
    (scope.withGiven given).take name = (scope.take name).withGiven given := by
  unfold take withGiven
  split <;> rfl

theorem takeAll_withGiven (names : List String) :
    (scope.withGiven given).takeAll names = (scope.takeAll names).withGiven given := by
  unfold takeAll
  induction names generalizing scope with
  | nil => rfl
  | cons name rest ih => rw [List.foldl_cons, take_withGiven, ih, List.foldl_cons]

theorem takeLetter_withGiven :
    (scope.withGiven given).takeLetter =
      scope.takeLetter.map fun (name, next) => (name, next.withGiven given) := by
  have same : (scope.withGiven given).letters = scope.letters := rfl
  unfold takeLetter
  rw [same]
  cases scope.letters with
  | nil => rfl
  | cons name rest =>
      exact congrArg (fun next => Except.ok (name, next))
        (take_withGiven { scope with letters := rest } given name)

/-- Which name is chosen has nothing to do with the names that are given. -/
theorem choose_withGiven (written : String) :
    (scope.withGiven given).choose written =
      (scope.choose written).map fun (name, next) => (name, next.withGiven given) := by
  have same : (scope.withGiven given).taken = scope.taken := rfl
  unfold choose
  rw [same]
  split
  case isTrue =>
    rw [takeLetter_withGiven]
    cases scope.takeLetter <;> rfl
  case isFalse =>
    exact congrArg (fun next => Except.ok (written, next)) (take_withGiven scope given written)

end

/-- Only what is found under a name counts for the name that stands for it. -/
theorem nameFor_withGiven {scope : Scope} {given : List (String × String)}
    (same : ∀ x, given.lookup x = scope.given.lookup x) (name : String) :
    (scope.withGiven given).nameFor name = scope.nameFor name :=
  congrArg (·.getD name) (same name)

end Scope

/-!
### One step of a walk

A walk goes on behind the parts of a formula that it comes through, and gets stuck where it does so
in a part.
-/

namespace Formula

variable {scope after left : Scope} {f f' g body : Formula} {c : Connective} {q : Quantifier}
  {v : Variable} {span : Span}

theorem renameIn_neg_eq_ok :
    (neg f span).renameIn scope = .ok (g, after) ↔
      ∃ f', f.renameIn scope = .ok (f', after) ∧ neg f' span = g := by
  rw [renameIn, bind_eq_ok_iff]
  simp [pure, Except.pure]

theorem renameIn_group_eq_ok :
    (group f span).renameIn scope = .ok (g, after) ↔
      ∃ f', f.renameIn scope = .ok (f', after) ∧ group f' span = g := by
  rw [renameIn, bind_eq_ok_iff]
  simp [pure, Except.pure]

theorem renameIn_binary_eq_ok :
    (binary c f f' span).renameIn scope = .ok (g, after) ↔
      ∃ newLeft between newRight, f.renameIn scope = .ok (newLeft, between) ∧
        f'.renameIn between = .ok (newRight, after) ∧ binary c newLeft newRight span = g := by
  rw [renameIn, bind_eq_ok_iff]
  simp [bind_eq_ok_iff, pure, Except.pure]

theorem renameIn_quantified_eq_ok :
    (quantified q v body span).renameIn scope = .ok (g, after) ↔
      ∃ name next body' last, scope.choose v.name = .ok (name, next) ∧
        body.renameIn (next.bindName v.name name) = .ok (body', last) ∧
        quantified q { v with name := name } body' span = g ∧
        last.release v.name (next.given.lookup v.name) = after := by
  rw [renameIn]
  rcases scope.choose v.name with error | ⟨name, next⟩ <;>
    simp [bind_eq_ok_iff, pure, Except.pure, and_assoc]

theorem renameIn_neg_eq_error :
    (neg f span).renameIn scope = .error left ↔ f.renameIn scope = .error left := by
  rw [renameIn, bind_eq_error_iff]
  simp [pure, Except.pure]

theorem renameIn_group_eq_error :
    (group f span).renameIn scope = .error left ↔ f.renameIn scope = .error left := by
  rw [renameIn, bind_eq_error_iff]
  simp [pure, Except.pure]

theorem renameIn_binary_eq_error :
    (binary c f f' span).renameIn scope = .error left ↔
      f.renameIn scope = .error left ∨
        ∃ newLeft between, f.renameIn scope = .ok (newLeft, between) ∧
          f'.renameIn between = .error left := by
  rw [renameIn, bind_eq_error_iff]
  simp [bind_eq_error_iff, pure, Except.pure]

theorem renameIn_quantified_eq_error :
    (quantified q v body span).renameIn scope = .error left ↔
      (∃ error, scope.choose v.name = .error error) ∧ scope = left ∨
        ∃ name next, scope.choose v.name = .ok (name, next) ∧
          body.renameIn (next.bindName v.name name) = .error left := by
  rw [renameIn]
  rcases scope.choose v.name with error | ⟨name, next⟩ <;>
    simp [bind_eq_error_iff, pure, Except.pure, and_assoc]

/-- Renaming fails where it finds no scope to start with, and where the walk from there gets
stuck. -/
theorem rename_eq_error {error : NamingError} :
    f.rename = .error error ↔ Scope.ofFormula f = .error error ∨
      ∃ scope left, Scope.ofFormula f = .ok scope ∧ f.renameIn scope = .error left ∧
        error = .exhausted := by
  rw [rename, bind_eq_error_iff]
  apply or_congr_right
  apply exists_congr
  intro scope
  cases f.renameIn scope <;> simp [pure, Except.pure, eq_comm]

/-- A walk over a formula leaves the bindings of the scope as they were. -/
theorem renameIn_restores (run : f.renameIn scope = .ok (g, after)) :
    after.given = scope.given ∧ after.enclosing = scope.enclosing := by
  induction f generalizing scope g after with
  | empty span =>
      cases run
      exact ⟨rfl, rfl⟩
  | term t =>
      cases run
      exact ⟨Scope.takeAll_given _ _, Scope.takeAll_enclosing _ _⟩
  | literal value span =>
      cases run
      exact ⟨rfl, rfl⟩
  | predicate name args span =>
      cases run
      exact ⟨Scope.takeAll_given _ _, Scope.takeAll_enclosing _ _⟩
  | neg argument span ih =>
      obtain ⟨argument', inner, -⟩ := renameIn_neg_eq_ok.1 run
      exact ih inner
  | binary c left right span ihLeft ihRight =>
      obtain ⟨newLeft, between, newRight, first, second, -⟩ := renameIn_binary_eq_ok.1 run
      obtain ⟨givenLeft, enclosingLeft⟩ := ihLeft first
      obtain ⟨givenRight, enclosingRight⟩ := ihRight second
      exact ⟨givenRight.trans givenLeft, enclosingRight.trans enclosingLeft⟩
  | group body span ih =>
      obtain ⟨body', inner, -⟩ := renameIn_group_eq_ok.1 run
      exact ih inner
  | quantified q v body span ih =>
      obtain ⟨name, next, body', last, chosen, inner, -, rfl⟩ := renameIn_quantified_eq_ok.1 run
      obtain ⟨given, enclosing⟩ := ih inner
      have step := Scope.chosen_of_choose chosen
      -- The body leaves the binding of the quantifier alone, so taking it off undoes it.
      rw [Scope.release_eq_leave given enclosing]
      exact ⟨step.given, step.enclosing⟩

end Formula

end PredicateLogic
