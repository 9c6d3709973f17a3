/-
Module: PredicateLogic.Proofs.WrittenTrees
Purpose: The trees that reading builds, told by their shape alone.
  `Formula.Written` follows the binding powers: the left operand of a connective has only tighter
  connectives at its top, the right operand also connectives as tight.  Every spelled tree is of
  this shape, and every tree of this shape is spelled by the lexemes that it is written with.
Main exports: Term.Written, Formula.Written, Formula.Written.mono, Spells.written,
  Term.Written.spelled, Formula.Written.spelled
-/
import PredicateLogic.Proofs.ParserSoundness
import PredicateLogic.Proofs.PrintedText
import PredicateLogic.Formula.Sameness

namespace PredicateLogic

/-!
### The shape of trees that were read

No mark is set on a variable, no function symbol is without arguments, and the connectives that are
not in parentheses stand as the binding powers have them.
-/

/-- Reading can build the term. -/
inductive Term.Written : Term → Prop where
  | var {v : Variable} (unmarked : v.free = none) : Term.Written (.var v)
  | app {name : String} {args : List Term} {span : Span} (nonempty : args ≠ [])
      (each : ∀ t ∈ args, Term.Written t) : Term.Written (.app name args span)

/-- Reading with a power can build the formula. -/
def Formula.Written (power : Nat) : Formula → Prop
  | .empty _ => False
  | .term t => t.Written
  | .literal _ _ => True
  | .predicate _ args _ => ∀ t ∈ args, t.Written
  | .neg argument _ => argument.Written 50
  | .binary c left right _ =>
      power < c.bindingPower ∧ left.Written c.bindingPower ∧ right.Written (c.bindingPower - 1)
  | .group body _ => body.Written 0
  | .quantified _ bound body _ => bound.free = none ∧ body.Written 50

/-- What can be read with a power can be read with a lower one. -/
theorem Formula.Written.mono {f : Formula} {power level : Nat} (written : f.Written level)
    (lower : power ≤ level) : f.Written power := by
  cases f with
  | binary c left right span =>
      obtain ⟨tighter, operands⟩ := written
      exact ⟨Nat.lt_of_le_of_lt lower tighter, operands⟩
  | _ => exact written

/-- A phrase is written as its class asks for: the powers of a chain and of a formula are the ones
just below the connectives that they may have at their top. -/
def Phrase.Written : Phrase → Prop
  | .term t => t.Written
  | .arguments args => args ≠ [] ∧ ∀ t ∈ args, t.Written
  | .primary f => f.Written 50
  | .chain f => f.Written 49
  | .formula f => f.Written 39

/-- What is spelled is written. -/
theorem Spells.written {tokens : List Token} {phrase : Phrase} (spelled : Spells tokens phrase) :
    phrase.Written := by
  induction spelled with
  | var named => exact .var rfl
  | app named opens arguments closes ih => exact .app ih.1 ih.2
  | argument term ih =>
      refine ⟨List.cons_ne_nil _ _, ?_⟩
      intro t member
      rw [List.mem_singleton.1 member]
      exact ih
  | moreArguments term separates others ih ihs =>
      refine ⟨List.cons_ne_nil _ _, ?_⟩
      intro t member
      rcases List.mem_cons.1 member with rfl | member
      · exact ih
      · exact ihs.2 t member
  | ofTerm term ih => exact ih
  | literal valued => trivial
  | proposition named | emptyArguments named opens closes =>
      intro t member
      cases member
  | predicate named opens arguments closes ih => exact ih.2
  | neg negates argument ih => exact ih
  | group opens body closes ih => exact ih.mono (Nat.zero_le 39)
  | quantified quantifies named body ih => exact ⟨rfl, ih⟩
  | ofPrimary primary ih => exact ih.mono (by decide)
  | @joined left right sign c f g first joins monotone rest ih ihs =>
      cases c with
      | implication => exact absurd rfl monotone
      | conjunction | disjunction => exact ⟨by decide, ih, ihs⟩
  | ofChain chain ih => exact ih.mono (by decide)
  | implies premise joins conclusion ih ihs => exact ⟨by decide, ih.mono (by decide), ihs⟩

/-!
### Writing a tree again

Tokens with the lexemes of a tree spell the tree, up to the places where they stand.
-/

/-- Where a closing parenthesis is written last, it stands last. -/
theorem exists_closing {tokens : List Token} {inner : List Lexeme}
    (same : tokens.map Token.lexeme = inner ++ [.rightParen]) :
    ∃ middle closing, tokens = middle ++ [closing] ∧ middle.map Token.lexeme = inner ∧
      closing.lexeme = .rightParen := by
  obtain ⟨middle, last, rfl, sameMiddle, sameLast⟩ := List.map_eq_append_iff.1 same
  obtain ⟨closing, rfl, closes⟩ := List.map_eq_singleton_iff.1 sameLast
  exact ⟨middle, closing, rfl, sameMiddle, closes⟩

/-- The arguments of written terms are spelled by their lexemes if each of them is. -/
theorem Term.spelled_arguments {args : List Term} (nonempty : args ≠ [])
    (each : ∀ t ∈ args, ∀ tokens : List Token, tokens.map Token.lexeme = t.lexemes →
      ∃ t', Spells tokens (.term t') ∧ t'.bare = t.bare) {tokens : List Token}
    (same : tokens.map Token.lexeme = argumentLexemes args) :
    ∃ args', Spells tokens (.arguments args') ∧ args'.map bare = args.map bare := by
  induction args generalizing tokens with
  | nil => exact absurd rfl nonempty
  | cons t ts ih =>
      cases ts with
      | nil =>
          obtain ⟨t', spelled, same'⟩ := each t List.mem_cons_self tokens same
          exact ⟨[t'], .argument spelled, by simp [same']⟩
      | cons next ts =>
          obtain ⟨first, others, rfl, sameFirst, sameOthers⟩ := List.map_eq_append_iff.1 same
          obtain ⟨comma, rest, rfl, separates, sameRest⟩ := List.map_eq_cons_iff.1 sameOthers
          obtain ⟨t', spelled, same'⟩ := each t List.mem_cons_self first sameFirst
          obtain ⟨ts', spelled', same''⟩ := ih (List.cons_ne_nil next ts)
            (fun u member => each u (List.mem_cons_of_mem t member)) sameRest
          refine ⟨t' :: ts', .moreArguments spelled separates spelled', ?_⟩
          rw [List.map_cons, same', same'']
          rfl

/-- A written term is spelled by its lexemes. -/
theorem Term.Written.spelled {t : Term} (written : t.Written) :
    ∀ tokens : List Token, tokens.map Token.lexeme = t.lexemes →
      ∃ t', Spells tokens (.term t') ∧ t'.bare = t.bare := by
  induction written with
  | @var v unmarked =>
      intro tokens same
      obtain ⟨token, rfl, named⟩ := List.map_eq_singleton_iff.1 same
      refine ⟨_, .var named, ?_⟩
      simp [Term.bare, Variable.bare, unmarked]
  | @app name args span nonempty each ih =>
      intro tokens same
      obtain ⟨head, tail, rfl, named, same⟩ := List.map_eq_cons_iff.1 same
      obtain ⟨opening, tail, rfl, opens, same⟩ := List.map_eq_cons_iff.1 same
      obtain ⟨inner, closing, rfl, same, closes⟩ := exists_closing same
      obtain ⟨args', spelled, same'⟩ := spelled_arguments nonempty ih same
      refine ⟨_, .app named opens spelled closes, ?_⟩
      simp [Term.bare, same']

namespace Spells

/-- A primary formula stands wherever a formula read with any power can stand. -/
theorem above_of_primary {tokens : List Token} {f : Formula} {power : Nat}
    (spelled : Spells tokens (.primary f)) : Spells tokens (Phrase.above power f) := by
  rw [← Phrase.above_high (Nat.le_max_right power 50)] at spelled
  exact spelled.loosen (Nat.le_max_left power 50)

end Spells

/-- A written formula is spelled by its lexemes. -/
theorem Formula.Written.spelled {f : Formula} {power : Nat} (written : f.Written power)
    {tokens : List Token} (same : tokens.map Token.lexeme = f.lexemes) :
    ∃ g, Spells tokens (Phrase.above power g) ∧ g.SameAs f := by
  induction f generalizing power tokens with
  | empty span => exact absurd written id
  | term t =>
      obtain ⟨t', spelled, same'⟩ := Term.Written.spelled written tokens same
      exact ⟨.term t', spelled.ofTerm.above_of_primary, congrArg Formula.term same'⟩
  | literal value span =>
      obtain ⟨token, rfl, valued⟩ := List.map_eq_singleton_iff.1 same
      exact ⟨_, (Spells.literal valued).above_of_primary, rfl⟩
  | predicate name args span =>
      cases args with
      | nil =>
          obtain ⟨token, rfl, named⟩ := List.map_eq_singleton_iff.1 same
          exact ⟨_, (Spells.proposition named).above_of_primary, rfl⟩
      | cons t ts =>
          obtain ⟨head, tail, rfl, named, same⟩ := List.map_eq_cons_iff.1 same
          obtain ⟨opening, tail, rfl, opens, same⟩ := List.map_eq_cons_iff.1 same
          obtain ⟨inner, closing, rfl, same, closes⟩ := exists_closing same
          obtain ⟨args', spelled, same'⟩ := Term.spelled_arguments (List.cons_ne_nil t ts)
            (fun u member => (written u member).spelled) same
          exact ⟨_, (Spells.predicate named opens spelled closes).above_of_primary,
            .predicate same'⟩
  | neg argument span ih =>
      obtain ⟨sign, tail, rfl, negates, same⟩ := List.map_eq_cons_iff.1 same
      obtain ⟨g, spelled, same'⟩ := ih written same
      rw [Phrase.above_high (Nat.le_refl 50)] at spelled
      exact ⟨_, (Spells.neg negates spelled).above_of_primary, .neg same'⟩
  | binary c left right span ihLeft ihRight =>
      obtain ⟨tighter, writtenLeft, writtenRight⟩ := written
      obtain ⟨first, second, rfl, sameFirst, same⟩ := List.map_eq_append_iff.1 same
      obtain ⟨sign, rest, rfl, joins, sameRest⟩ := List.map_eq_cons_iff.1 same
      obtain ⟨f, spelledLeft, sameLeft⟩ := ihLeft writtenLeft sameFirst
      obtain ⟨g, spelledRight, sameRight⟩ := ihRight writtenRight sameRest
      have whole := spelledLeft.join (Nat.le_refl _) joins spelledRight
      exact ⟨_, whole.loosen (Nat.le_sub_one_of_lt tighter), .binary sameLeft sameRight⟩
  | group body span ih =>
      obtain ⟨opening, tail, rfl, opens, same⟩ := List.map_eq_cons_iff.1 same
      obtain ⟨inner, closing, rfl, same, closes⟩ := exists_closing same
      obtain ⟨g, spelled, same'⟩ := ih written same
      rw [Phrase.above_low (by decide)] at spelled
      exact ⟨_, (Spells.group opens spelled closes).above_of_primary, .group same'⟩
  | quantified q bound body span ih =>
      obtain ⟨unmarked, writtenBody⟩ := written
      obtain ⟨sign, tail, rfl, quantifies, same⟩ := List.map_eq_cons_iff.1 same
      obtain ⟨variableToken, tail, rfl, named, same⟩ := List.map_eq_cons_iff.1 same
      obtain ⟨g, spelled, same'⟩ := ih writtenBody same
      rw [Phrase.above_high (Nat.le_refl 50)] at spelled
      have sameBound : ({ name := bound.name } : Variable).bare = bound.bare := by
        rw [Variable.bare, Variable.bare, unmarked]
      exact ⟨_, (Spells.quantified quantifies named spelled).above_of_primary,
        .quantified sameBound same'⟩

end PredicateLogic
