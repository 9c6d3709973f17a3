/-
Module: PredicateLogic.Proofs.Respelling
Purpose: The tree that tokens spell depends on their lexemes alone.
  Where the tokens stand shows in the ranges of the nodes and nowhere else: other tokens with the
  same lexemes spell the same tree.
Main exports: Phrase.SpelledBy, Spells.of_lexemes_eq
-/
import PredicateLogic.Formula.Sameness
import PredicateLogic.Proofs.ParserGrammar

namespace PredicateLogic

/-- The tokens spell the phrase, up to the places where they stand. -/
def Phrase.SpelledBy (tokens : List Token) : Phrase → Prop
  | .term t => ∃ t', Spells tokens (.term t') ∧ t'.bare = t.bare
  | .arguments args => ∃ args', Spells tokens (.arguments args') ∧
      args'.map Term.bare = args.map Term.bare
  | .primary f => ∃ g, Spells tokens (.primary g) ∧ g.SameAs f
  | .chain f => ∃ g, Spells tokens (.chain g) ∧ g.SameAs f
  | .formula f => ∃ g, Spells tokens (.formula g) ∧ g.SameAs f

namespace Spells

/-- A lexeme between others comes from a token between others. -/
theorem exists_between {tokens left right : List Token} {sign : Token}
    (same : tokens.map Token.lexeme = (left ++ sign :: right).map Token.lexeme) :
    ∃ left' sign' right', tokens = left' ++ sign' :: right' ∧
      left'.map Token.lexeme = left.map Token.lexeme ∧ sign'.lexeme = sign.lexeme ∧
      right'.map Token.lexeme = right.map Token.lexeme := by
  rw [List.map_append, List.map_cons] at same
  obtain ⟨left', others, rfl, sameLeft, sameOthers⟩ := List.map_eq_append_iff.1 same
  obtain ⟨sign', right', rfl, sameSign, sameRight⟩ := List.map_eq_cons_iff.1 sameOthers
  exact ⟨left', sign', right', rfl, sameLeft, sameSign, sameRight⟩

/-- Lexemes between two others come from tokens between two others. -/
theorem exists_enclosed {tokens inner : List Token} {opening closing : Token}
    (same : tokens.map Token.lexeme = (opening :: inner ++ [closing]).map Token.lexeme) :
    ∃ opening' inner' closing', tokens = opening' :: inner' ++ [closing'] ∧
      opening'.lexeme = opening.lexeme ∧ inner'.map Token.lexeme = inner.map Token.lexeme ∧
      closing'.lexeme = closing.lexeme := by
  rw [List.map_append] at same
  obtain ⟨front, back, rfl, sameFront, sameBack⟩ := List.map_eq_append_iff.1 same
  obtain ⟨opening', inner', rfl, sameOpening, sameInner⟩ := List.map_eq_cons_iff.1 sameFront
  obtain ⟨closing', rfl, sameClosing⟩ := List.map_eq_singleton_iff.1 sameBack
  exact ⟨opening', inner', closing', rfl, sameOpening, sameInner, sameClosing⟩

/-- Tokens with the lexemes of others spell what the others spell. -/
theorem of_lexemes_eq {tokens tokens' : List Token} {phrase : Phrase}
    (spelled : Spells tokens phrase)
    (same : tokens'.map Token.lexeme = tokens.map Token.lexeme) : phrase.SpelledBy tokens' := by
  induction spelled generalizing tokens' with
  | var named =>
      obtain ⟨token', rfl, named'⟩ := List.map_eq_singleton_iff.1 same
      exact ⟨_, .var (named'.trans named), rfl⟩
  | app named opens arguments closes ih =>
      obtain ⟨head', tail, closing', rfl, sameHead, sameTail, sameClosing⟩ := exists_enclosed same
      obtain ⟨opening', inner', rfl, sameOpening, sameInner⟩ := List.map_eq_cons_iff.1 sameTail
      obtain ⟨args', spelled', sameArgs⟩ := ih sameInner
      refine ⟨_, .app (sameHead.trans named) (sameOpening.trans opens) spelled'
        (sameClosing.trans closes), ?_⟩
      simp [Term.bare, sameArgs]
  | argument term ih =>
      obtain ⟨t', spelled', sameTerm⟩ := ih same
      exact ⟨[t'], .argument spelled', by simp [sameTerm]⟩
  | moreArguments term separates others ih ihs =>
      obtain ⟨first', comma', rest', rfl, sameFirst, sameComma, sameRest⟩ := exists_between same
      obtain ⟨t', spelledFirst, sameTerm⟩ := ih sameFirst
      obtain ⟨ts', spelledRest, sameTerms⟩ := ihs sameRest
      refine ⟨t' :: ts', .moreArguments spelledFirst (sameComma.trans separates) spelledRest, ?_⟩
      rw [List.map_cons, List.map_cons, sameTerm, sameTerms]
  | ofTerm term ih =>
      obtain ⟨t', spelled', sameTerm⟩ := ih same
      exact ⟨.term t', .ofTerm spelled', congrArg Formula.term sameTerm⟩
  | literal valued =>
      obtain ⟨token', rfl, valued'⟩ := List.map_eq_singleton_iff.1 same
      exact ⟨_, .literal (valued'.trans valued), rfl⟩
  | proposition named =>
      obtain ⟨token', rfl, named'⟩ := List.map_eq_singleton_iff.1 same
      exact ⟨_, .proposition (named'.trans named), rfl⟩
  | emptyArguments named opens closes =>
      obtain ⟨head', tail, rfl, sameHead, same⟩ := List.map_eq_cons_iff.1 same
      obtain ⟨opening', tail, rfl, sameOpening, same⟩ := List.map_eq_cons_iff.1 same
      obtain ⟨closing', rfl, sameClosing⟩ := List.map_eq_singleton_iff.1 same
      exact ⟨_, .emptyArguments (sameHead.trans named) (sameOpening.trans opens)
        (sameClosing.trans closes), rfl⟩
  | predicate named opens arguments closes ih =>
      obtain ⟨head', tail, closing', rfl, sameHead, sameTail, sameClosing⟩ := exists_enclosed same
      obtain ⟨opening', inner', rfl, sameOpening, sameInner⟩ := List.map_eq_cons_iff.1 sameTail
      obtain ⟨args', spelled', sameArgs⟩ := ih sameInner
      exact ⟨_, .predicate (sameHead.trans named) (sameOpening.trans opens) spelled'
        (sameClosing.trans closes), .predicate sameArgs⟩
  | neg negates argument ih =>
      obtain ⟨sign', rest', rfl, sameSign, sameRest⟩ := List.map_eq_cons_iff.1 same
      obtain ⟨g, spelled', sameArgument⟩ := ih sameRest
      exact ⟨_, .neg (sameSign.trans negates) spelled', .neg sameArgument⟩
  | group opens body closes ih =>
      obtain ⟨opening', inner', closing', rfl, sameOpening, sameInner, sameClosing⟩ :=
        exists_enclosed same
      obtain ⟨g, spelled', sameBody⟩ := ih sameInner
      exact ⟨_, .group (sameOpening.trans opens) spelled' (sameClosing.trans closes),
        .group sameBody⟩
  | quantified quantifies named body ih =>
      obtain ⟨sign', tail, rfl, sameSign, same⟩ := List.map_eq_cons_iff.1 same
      obtain ⟨variableToken', rest', rfl, sameVariable, sameRest⟩ := List.map_eq_cons_iff.1 same
      obtain ⟨g, spelled', sameBody⟩ := ih sameRest
      exact ⟨_, .quantified (sameSign.trans quantifies) (sameVariable.trans named) spelled',
        .quantified rfl sameBody⟩
  | ofPrimary primary ih =>
      obtain ⟨g, spelled', sameFormula⟩ := ih same
      exact ⟨g, .ofPrimary spelled', sameFormula⟩
  | joined first joins monotone rest ih ihs =>
      obtain ⟨left', sign', right', rfl, sameLeft, sameSign, sameRight⟩ := exists_between same
      obtain ⟨f', spelledLeft, sameFirst⟩ := ih sameLeft
      obtain ⟨g', spelledRight, sameRest⟩ := ihs sameRight
      exact ⟨_, .joined spelledLeft (sameSign.trans joins) monotone spelledRight,
        .binary sameFirst sameRest⟩
  | ofChain chain ih =>
      obtain ⟨g, spelled', sameFormula⟩ := ih same
      exact ⟨g, .ofChain spelled', sameFormula⟩
  | implies premise joins conclusion ih ihs =>
      obtain ⟨left', sign', right', rfl, sameLeft, sameSign, sameRight⟩ := exists_between same
      obtain ⟨f', spelledLeft, samePremise⟩ := ih sameLeft
      obtain ⟨g', spelledRight, sameConclusion⟩ := ihs sameRight
      exact ⟨_, .implies spelledLeft (sameSign.trans joins) spelledRight,
        .binary samePremise sameConclusion⟩

end Spells

end PredicateLogic
