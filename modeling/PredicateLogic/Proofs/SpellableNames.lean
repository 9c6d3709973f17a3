/-
Module: PredicateLogic.Proofs.SpellableNames
Purpose: Formulas whose names can be spelled, node by node.
  Only names are in question, and they stand in atoms and behind quantifiers, so a rewriting that
  moves atoms and quantifiers about and changes the rest keeps the names spellable.
Main exports: Term.Spellable, Formula.namesSpellable, Formula.spellable_iff_everywhere,
  Formula.indifferent_namesSpellable
-/
import PredicateLogic.Proofs.EveryNode
import PredicateLogic.Proofs.PrintedText

namespace PredicateLogic

namespace Lexeme

/-- A symbol, which carries no name, can always be spelled. -/
theorem spellable_of_symbolic {l : Lexeme} (symbolic : l.name? = none) : l.Spellable :=
  Or.inl symbolic

/-- Parentheses around lexemes can always be spelled. -/
theorem forall_spellable_enclosed {ls : List Lexeme} :
    (∀ l ∈ .leftParen :: ls ++ [.rightParen], l.Spellable) ↔ ∀ l ∈ ls, l.Spellable := by
  have opening : Lexeme.leftParen.Spellable := spellable_of_symbolic rfl
  have closing : Lexeme.rightParen.Spellable := spellable_of_symbolic rfl
  simp [or_imp, forall_and, opening, closing]

end Lexeme

/-- The names in a term can be spelled. -/
def Term.Spellable (t : Term) : Prop := ∀ l ∈ t.lexemes, l.Spellable

/-- Arguments can be spelled if each of them can; the commas between them always can. -/
theorem Term.spellable_argumentLexemes {args : List Term} :
    (∀ l ∈ argumentLexemes args, l.Spellable) ↔ ∀ t ∈ args, t.Spellable := by
  induction args with
  | nil => simp [argumentLexemes]
  | cons t ts ih =>
      have comma : Lexeme.comma.Spellable := Lexeme.spellable_of_symbolic rfl
      cases ts with
      | nil => simp [argumentLexemes, Term.Spellable]
      | cons next rest =>
          rw [List.forall_mem_cons, ← ih]
          simp only [argumentLexemes, List.forall_mem_append, List.forall_mem_cons, comma,
            true_and, Term.Spellable]

/-- A name with arguments in parentheses can be spelled if the name and the arguments can. -/
theorem Term.spellable_application {l : Lexeme} {args : List Term} :
    (∀ l' ∈ l :: .leftParen :: argumentLexemes args ++ [.rightParen], l'.Spellable) ↔
      l.Spellable ∧ ∀ t ∈ args, t.Spellable := by
  rw [List.cons_append, List.forall_mem_cons, Lexeme.forall_spellable_enclosed,
    spellable_argumentLexemes]

theorem Term.spellable_var {v : Variable} :
    (Term.var v).Spellable ↔ (Lexeme.var v.name).Spellable := by
  simp [Term.Spellable, lexemes]

theorem Term.spellable_app {name : String} {args : List Term} {span : Span} :
    (Term.app name args span).Spellable ↔
      (Lexeme.function name).Spellable ∧ ∀ t ∈ args, t.Spellable :=
  spellable_application

namespace Formula

/-- The names at the root of a formula can be spelled. -/
def namesSpellable : Formula → Prop
  | .term t => t.Spellable
  | .predicate name args _ => (Lexeme.predicate name).Spellable ∧ ∀ t ∈ args, t.Spellable
  | .quantified _ bound _ _ => (Lexeme.var bound.name).Spellable
  | _ => True

/-- A formula can be spelled exactly when its names can, at every node. -/
theorem spellable_iff_everywhere {f : Formula} :
    (∀ l ∈ f.lexemes, l.Spellable) ↔ f.Everywhere namesSpellable := by
  induction f with
  | empty span => simp [lexemes, Everywhere, namesSpellable]
  | term t => exact Iff.rfl
  | literal value span =>
      have word : (Lexeme.literal value).Spellable := Lexeme.spellable_of_symbolic rfl
      simp [lexemes, Everywhere, namesSpellable, word]
  | predicate name args span =>
      cases args with
      | nil => simp [lexemes, Everywhere, namesSpellable]
      | cons t ts => exact Term.spellable_application
  | neg argument span ih =>
      have sign : Lexeme.negation.Spellable := Lexeme.spellable_of_symbolic rfl
      rw [lexemes, List.forall_mem_cons, ih]
      exact and_congr_left fun _ => iff_true_intro sign
  | binary c left right span ihLeft ihRight =>
      have sign : (Lexeme.connective c).Spellable := Lexeme.spellable_of_symbolic rfl
      simp only [lexemes, List.forall_mem_append, List.forall_mem_cons, sign, ihLeft, ihRight,
        Everywhere, namesSpellable, true_and]
  | group body span ih =>
      rw [lexemes, Lexeme.forall_spellable_enclosed, ih]
      exact (iff_of_eq (true_and _)).symm
  | quantified q bound body span ih =>
      have sign : (Lexeme.quantifier q).Spellable := Lexeme.spellable_of_symbolic rfl
      simp only [lexemes, List.forall_mem_cons, sign, ih, Everywhere, namesSpellable, true_and]

theorem indifferent_namesSpellable : Indifferent namesSpellable where
  neg _ _ := trivial
  group _ _ := trivial
  joined _ _ _ _ _ := trivial
  operands _ _ _ _ _ _ _ _ := trivial
  quantified _ _ _ _ _ _ _ spellable := spellable

end Formula

end PredicateLogic
