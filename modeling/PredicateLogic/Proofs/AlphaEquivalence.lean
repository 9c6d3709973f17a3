/-
Module: PredicateLogic.Proofs.AlphaEquivalence
Purpose: Formulas that differ in nothing but the names of bound variables and in source ranges.
  Two formulas are compared node by node below a list of pairs of corresponding binders.  A pair of
  occurrences agrees when both are bound by corresponding binders, or when neither is bound and both
  have one name (`SameReference`); marks, symbols and the shape of the tree have to agree as they
  are.  Alpha-equivalent formulas have the same free names (`AlphaEquivalent.leavesFree_iff`) and
  the same function symbols (`AlphaEquivalent.mem_identifiers_function`), and mean the same
  (`AlphaEquivalent.equivalent`).
Main exports: SameReference, Term.AlphaIn, Formula.AlphaIn, Formula.AlphaEquivalent,
  Term.alphaIn_mapOccurrences, Formula.AlphaEquivalent.leavesFree_iff,
  Formula.AlphaEquivalent.mem_identifiers_function, Formula.AlphaEquivalent.equivalent
-/
import PredicateLogic.Proofs.BoundNames

namespace PredicateLogic

universe u

/-!
### Corresponding names
-/

/-- Whether two names stand for the same thing below pairs of corresponding binders, the innermost
pair first: the innermost binders of both are a pair, or neither is bound and they are equal. -/
def SameReference : List (String × String) → String → String → Prop
  | [], x, y => x = y
  | (a, b) :: outer, x, y => (x = a ∧ y = b) ∨ (x ≠ a ∧ y ≠ b ∧ SameReference outer x y)

theorem SameReference.symm {binders : List (String × String)} {x y : String}
    (same : SameReference binders x y) : SameReference (binders.map Prod.swap) y x := by
  induction binders with
  | nil => exact Eq.symm same
  | cons pair outer ih =>
      rcases same with ⟨hx, hy⟩ | ⟨hx, hy, same⟩
      · exact Or.inl ⟨hy, hx⟩
      · exact Or.inr ⟨hy, hx, ih same⟩

/-- A name stands for what its binder is called on the other side, as long as no two binders are
called alike there, and a name without a binder is not the name of one there. -/
theorem sameReference_lookup {binders : List (String × String)} {x : String}
    (distinct : (binders.map Prod.snd).Nodup)
    (uncaptured : x ∉ binders.map Prod.fst → x ∉ binders.map Prod.snd) :
    SameReference binders x ((binders.lookup x).getD x) := by
  induction binders with
  | nil => rfl
  | cons pair outer ih =>
      obtain ⟨a, b⟩ := pair
      rw [List.map_cons, List.nodup_cons] at distinct
      simp only [List.map_cons, List.mem_cons, not_or] at uncaptured
      by_cases own : x = a
      · subst own
        exact Or.inl ⟨rfl, by simp⟩
      · have missed : (x == a) = false := by simpa using own
        simp only [List.lookup_cons, missed]
        refine Or.inr ⟨own, ?_, ih distinct.2 fun absent => (uncaptured ⟨own, absent⟩).2⟩
        -- The name found further out differs from the innermost one.
        cases found : outer.lookup x with
        | none =>
            have absent : x ∉ outer.map Prod.fst := by
              intro member
              obtain ⟨entry, listed, rfl⟩ := List.mem_map.1 member
              simpa using List.lookup_eq_none_iff.1 found entry listed
            exact (uncaptured ⟨own, absent⟩).1
        | some y =>
            obtain ⟨before, after, split, -⟩ := List.lookup_eq_some_iff.1 found
            rintro rfl
            exact distinct.1 (by simp [split])

/-!
### The relation
-/

mutual

/-- The terms differ in nothing but the names of variables that corresponding binders bind. -/
inductive Term.AlphaIn (binders : List (String × String)) : Term → Term → Prop where
  | var {v w : Variable} (marks : v.free = w.free)
      (same : SameReference binders v.name w.name) : Term.AlphaIn binders (.var v) (.var w)
  | app {name : String} {args args' : List Term} {span span' : Span}
      (arguments : Term.AlphaListIn binders args args') :
      Term.AlphaIn binders (.app name args span) (.app name args' span')

/-- The terms of the lists correspond one by one. -/
inductive Term.AlphaListIn (binders : List (String × String)) :
    List Term → List Term → Prop where
  | nil : Term.AlphaListIn binders [] []
  | cons {t t' : Term} {ts ts' : List Term} (head : Term.AlphaIn binders t t')
      (tail : Term.AlphaListIn binders ts ts') : Term.AlphaListIn binders (t :: ts) (t' :: ts')

end

/-- The formulas differ in nothing but the names of variables that corresponding binders bind. -/
inductive Formula.AlphaIn : List (String × String) → Formula → Formula → Prop where
  | empty {binders span span'} : Formula.AlphaIn binders (.empty span) (.empty span')
  | term {binders t t'} (same : Term.AlphaIn binders t t') :
      Formula.AlphaIn binders (.term t) (.term t')
  | literal {binders value span span'} :
      Formula.AlphaIn binders (.literal value span) (.literal value span')
  | predicate {binders name args args' span span'}
      (arguments : Term.AlphaListIn binders args args') :
      Formula.AlphaIn binders (.predicate name args span) (.predicate name args' span')
  | neg {binders f f' span span'} (argument : Formula.AlphaIn binders f f') :
      Formula.AlphaIn binders (.neg f span) (.neg f' span')
  | binary {binders c f f' g g' span span'} (left : Formula.AlphaIn binders f f')
      (right : Formula.AlphaIn binders g g') :
      Formula.AlphaIn binders (.binary c f g span) (.binary c f' g' span')
  | group {binders f f' span span'} (body : Formula.AlphaIn binders f f') :
      Formula.AlphaIn binders (.group f span) (.group f' span')
  | quantified {binders q v w f f' span span'} (marks : v.free = w.free)
      (body : Formula.AlphaIn ((v.name, w.name) :: binders) f f') :
      Formula.AlphaIn binders (.quantified q v f span) (.quantified q w f' span')

/-- The formulas differ in nothing but the names of bound variables and in source ranges. -/
def Formula.AlphaEquivalent (f g : Formula) : Prop := f.AlphaIn [] g

mutual

theorem Term.AlphaIn.symm {binders : List (String × String)} :
    ∀ {s t : Term}, s.AlphaIn binders t → t.AlphaIn (binders.map Prod.swap) s
  | _, _, .var marks same => .var marks.symm same.symm
  | _, _, .app arguments => .app arguments.symm

theorem Term.AlphaListIn.symm {binders : List (String × String)} :
    ∀ {ss ts : List Term}, Term.AlphaListIn binders ss ts →
      Term.AlphaListIn (binders.map Prod.swap) ts ss
  | _, _, .nil => .nil
  | _, _, .cons head tail => .cons head.symm tail.symm

end

theorem Formula.AlphaIn.symm {binders : List (String × String)} {f g : Formula}
    (same : f.AlphaIn binders g) : g.AlphaIn (binders.map Prod.swap) f := by
  induction same with
  | empty => exact .empty
  | term same => exact .term same.symm
  | literal => exact .literal
  | predicate arguments => exact .predicate arguments.symm
  | neg argument ih => exact .neg ih
  | binary left right ihLeft ihRight => exact .binary ihLeft ihRight
  | group body ih => exact .group ih
  | quantified marks body ih => exact .quantified marks.symm ih

theorem Formula.AlphaEquivalent.symm {f g : Formula} (same : f.AlphaEquivalent g) :
    g.AlphaEquivalent f :=
  AlphaIn.symm same

/-!
### Changing the occurrences of a term
-/

theorem Term.alphaListIn_map {binders : List (String × String)} {ts : List Term}
    {change : Term → Term} (same : ∀ t ∈ ts, t.AlphaIn binders (change t)) :
    Term.AlphaListIn binders ts (ts.map change) := by
  induction ts with
  | nil => exact .nil
  | cons t ts ih =>
      apply AlphaListIn.cons (same t List.mem_cons_self)
      apply ih
      intro s member
      exact same s (List.mem_cons_of_mem t member)

/-- A term corresponds to itself with its occurrences changed when every occurrence corresponds to
what it is changed to. -/
theorem Term.alphaIn_mapOccurrences {binders : List (String × String)}
    {change : Variable → Variable} {t : Term} (marks : ∀ v, (change v).free = v.free)
    (same : ∀ v ∈ t.occurrences, SameReference binders v.name (change v).name) :
    t.AlphaIn binders (t.mapOccurrences change) := by
  induction t with
  | var v => exact .var (marks v).symm (same v (by simp [occurrences]))
  | app name args span ih =>
      simp only [mapOccurrences, mapOccurrencesList_eq_map]
      apply AlphaIn.app
      apply alphaListIn_map
      intro t member
      apply ih t member
      intro v occurs
      apply same
      simp only [occurrences, occurrencesList_eq_flatMap, List.mem_flatMap]
      exact ⟨t, member, occurs⟩

/-!
### What corresponding formulas have in common
-/

mutual

/-- To every occurrence in a term one in a corresponding term corresponds. -/
theorem Term.AlphaIn.exists_occurrence {binders : List (String × String)} :
    ∀ {s t : Term}, s.AlphaIn binders t → ∀ v ∈ s.occurrences,
      ∃ w ∈ t.occurrences, SameReference binders v.name w.name
  | .var v, .var w, .var _ same, u, occurs => by
      have own : u = v := by simpa [Term.occurrences] using occurs
      subst own
      exact ⟨w, by simp [Term.occurrences], same⟩
  | .app _ _ _, .app _ _ _, .app arguments, u, occurs => arguments.exists_occurrence u occurs

/-- To every occurrence in a list of terms one in a corresponding list corresponds. -/
theorem Term.AlphaListIn.exists_occurrence {binders : List (String × String)} :
    ∀ {ss ts : List Term}, Term.AlphaListIn binders ss ts →
      ∀ v ∈ Term.occurrencesList ss, ∃ w ∈ Term.occurrencesList ts,
        SameReference binders v.name w.name
  | [], [], .nil, _, occurs => by simp at occurs
  | s :: ss, t :: ts, .cons head tail, u, occurs => by
      simp only [Term.occurrencesList, List.mem_append] at occurs ⊢
      rcases occurs with occurs | occurs
      · obtain ⟨w, found, same⟩ := head.exists_occurrence u occurs
        exact ⟨w, Or.inl found, same⟩
      · obtain ⟨w, found, same⟩ := tail.exists_occurrence u occurs
        exact ⟨w, Or.inr found, same⟩

end

mutual

/-- Corresponding terms have the same function symbols. -/
theorem Term.AlphaIn.mem_identifiers_function {binders : List (String × String)} {name : String} :
    ∀ {s t : Term}, s.AlphaIn binders t → (name, Role.function) ∈ s.identifiers →
      (name, Role.function) ∈ t.identifiers
  | .var _, .var _, .var _ _, listed => by simp [Term.identifiers] at listed
  | .app _ _ _, .app _ _ _, .app arguments, listed => by
      simp only [Term.identifiers, List.mem_cons] at listed ⊢
      rcases listed with own | listed
      · exact Or.inl own
      · exact Or.inr (arguments.mem_identifiers_function listed)

/-- Corresponding lists of terms have the same function symbols. -/
theorem Term.AlphaListIn.mem_identifiers_function {binders : List (String × String)}
    {name : String} :
    ∀ {ss ts : List Term}, Term.AlphaListIn binders ss ts →
      (name, Role.function) ∈ Term.identifiersList ss →
      (name, Role.function) ∈ Term.identifiersList ts
  | [], [], .nil, listed => listed
  | s :: ss, t :: ts, .cons head tail, listed => by
      simp only [Term.identifiersList, List.mem_append] at listed ⊢
      rcases listed with listed | listed
      · exact Or.inl (head.mem_identifiers_function listed)
      · exact Or.inr (tail.mem_identifiers_function listed)

end

namespace Formula

/-- To every free name of a formula one of a corresponding formula corresponds. -/
theorem AlphaIn.exists_leavesFree {binders : List (String × String)} {f g : Formula}
    (same : f.AlphaIn binders g) {x : String} (free : f.LeavesFree x) :
    ∃ y, g.LeavesFree y ∧ SameReference binders x y := by
  induction same generalizing x with
  | empty => exact absurd free (by simp)
  | term same =>
      obtain ⟨v, occurs, rfl⟩ := leavesFree_term.1 free
      obtain ⟨w, found, reference⟩ := same.exists_occurrence v occurs
      exact ⟨w.name, leavesFree_term.2 ⟨w, found, rfl⟩, reference⟩
  | literal => exact absurd free (by simp)
  | predicate arguments =>
      obtain ⟨t, member, v, occurs, rfl⟩ := leavesFree_predicate.1 free
      obtain ⟨w, found, reference⟩ := arguments.exists_occurrence v
        (by simpa using ⟨t, member, occurs⟩)
      obtain ⟨t', member', found⟩ := List.mem_flatMap.1 (by simpa using found)
      exact ⟨w.name, leavesFree_predicate.2 ⟨t', member', w, found, rfl⟩, reference⟩
  | neg argument ih => exact ih free
  | binary left right ihLeft ihRight =>
      rcases leavesFree_binary.1 free with free | free
      · obtain ⟨y, found, reference⟩ := ihLeft free
        exact ⟨y, leavesFree_binary.2 (Or.inl found), reference⟩
      · obtain ⟨y, found, reference⟩ := ihRight free
        exact ⟨y, leavesFree_binary.2 (Or.inr found), reference⟩
  | group body ih => exact ih free
  | quantified marks body ih =>
      obtain ⟨other, free⟩ := leavesFree_quantified.1 free
      obtain ⟨y, found, reference⟩ := ih free
      rcases reference with ⟨own, -⟩ | ⟨-, different, reference⟩
      · exact absurd own other
      · exact ⟨y, leavesFree_quantified.2 ⟨different, found⟩, reference⟩

/-- Alpha-equivalent formulas have the same free names. -/
theorem AlphaEquivalent.leavesFree_iff {f g : Formula} (same : f.AlphaEquivalent g)
    {name : String} : f.LeavesFree name ↔ g.LeavesFree name := by
  constructor
  · intro free
    obtain ⟨y, found, rfl⟩ := AlphaIn.exists_leavesFree same free
    exact found
  · intro free
    obtain ⟨y, found, rfl⟩ := AlphaIn.exists_leavesFree same.symm free
    exact found

/-- Corresponding formulas have the same function symbols. -/
theorem AlphaIn.mem_identifiers_function {binders : List (String × String)} {f g : Formula}
    (same : f.AlphaIn binders g) {name : String}
    (listed : (name, Role.function) ∈ f.identifiers) :
    (name, Role.function) ∈ g.identifiers := by
  induction same with
  | empty => exact listed
  | term same => exact same.mem_identifiers_function listed
  | literal => exact listed
  | predicate arguments =>
      simp only [identifiers, ← Term.identifiersList_eq_flatMap] at listed ⊢
      exact arguments.mem_identifiers_function listed
  | neg argument ih => exact ih listed
  | binary left right ihLeft ihRight =>
      rcases List.mem_append.1 listed with listed | listed
      · exact List.mem_append.2 (Or.inl (ihLeft listed))
      · exact List.mem_append.2 (Or.inr (ihRight listed))
  | group body ih => exact ih listed
  | quantified marks body ih =>
      simp only [identifiers, List.mem_cons, Prod.mk.injEq, reduceCtorEq, and_false,
        false_or] at listed ⊢
      exact ih listed

/-- Alpha-equivalent formulas have the same function symbols. -/
theorem AlphaEquivalent.mem_identifiers_function {f g : Formula} (same : f.AlphaEquivalent g)
    {name : String} :
    (name, Role.function) ∈ f.identifiers ↔ (name, Role.function) ∈ g.identifiers :=
  ⟨AlphaIn.mem_identifiers_function same, AlphaIn.mem_identifiers_function same.symm⟩

end Formula

/-!
### Meaning

Corresponding formulas have the same truth value under two valuations that give corresponding names
the same value.  Below a pair of binders both valuations change, each at the name of its own binder.
-/

section

variable {M : Structure.{u}} {binders : List (String × String)} {ρ σ : Valuation M}

mutual

/-- Corresponding terms have the same value. -/
theorem Term.AlphaIn.value_eq (agree : ∀ x y, SameReference binders x y → ρ x = σ y) :
    ∀ {s t : Term}, s.AlphaIn binders t → s.value M ρ = t.value M σ
  | .var _, .var _, .var _ same => agree _ _ same
  | .app _ _ _, .app _ _ _, .app arguments =>
      congrArg (M.function _) (arguments.values_eq agree)

/-- Corresponding lists of terms have the same values. -/
theorem Term.AlphaListIn.values_eq (agree : ∀ x y, SameReference binders x y → ρ x = σ y) :
    ∀ {ss ts : List Term}, Term.AlphaListIn binders ss ts →
      Term.values M ρ ss = Term.values M σ ts
  | [], [], .nil => rfl
  | s :: ss, t :: ts, .cons head tail => by
      rw [Term.values, Term.values, head.value_eq agree, tail.values_eq agree]

end

/-- Corresponding formulas have the same truth value. -/
theorem Formula.AlphaIn.holds_iff {f g : Formula} (same : f.AlphaIn binders g)
    (agree : ∀ x y, SameReference binders x y → ρ x = σ y) : f.Holds M ρ ↔ g.Holds M σ := by
  induction same generalizing ρ σ with
  | empty => exact Iff.rfl
  | term same => simp only [Holds, same.value_eq agree]
  | literal => exact Iff.rfl
  | predicate arguments =>
      simp only [Holds, ← Term.values_eq_map, arguments.values_eq agree]
  | neg argument ih => exact not_congr (ih agree)
  | @binary binders c f f' g g' span span' left right ihLeft ihRight =>
      exact c.join_congr (ihLeft agree) (ihRight agree)
  | group body ih => exact ih agree
  | @quantified binders q v w f f' span span' marks body ih =>
      apply q.over_congr
      intro d
      apply ih
      rintro x y (⟨rfl, rfl⟩ | ⟨otherLeft, otherRight, same⟩)
      · rw [Function.update_self, Function.update_self]
      · rw [Function.update_of_ne otherLeft, Function.update_of_ne otherRight]
        exact agree x y same

end

/-- Alpha-equivalent formulas mean the same. -/
theorem Formula.AlphaEquivalent.equivalent {f g : Formula} (same : f.AlphaEquivalent g) :
    Equivalent.{u} f g := by
  intro M ρ
  apply AlphaIn.holds_iff same
  intro x y reference
  exact congrArg ρ reference

end PredicateLogic
