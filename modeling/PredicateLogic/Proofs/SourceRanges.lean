/-
Module: PredicateLogic.Proofs.SourceRanges
Purpose: The range of a node is exactly the part of the text that spells the node.
  The tokens of a tree contain those of its children as separate stretches, one behind the other
  (`Spells.segmented`), so every node is spelled by a stretch of the tokens of the text.  Tokens
  stand in order, which puts the ranges of children in order and into the range of their parent, and
  cutting a stretch out of the text leaves its lexemes as they are, which spell the node again.
Main exports: Formula.children, Formula.HasNode, Segmented, Spells.segmented,
  Formula.HasNode.spelled, Formula.RangeExact, Formula.rangeExact_of_parse
-/
import PredicateLogic.Proofs.Respelling
import PredicateLogic.Proofs.ScannedText

namespace PredicateLogic

open PredicateLogic.Token

/-!
### Nodes

Arguments and bound variables are nodes as well, each a term that stands by itself.
-/

namespace Formula

/-- The nodes right below a formula, from left to right. -/
def children : Formula → List Formula
  | .empty _ => []
  | .term (.var _) => []
  | .term (.app _ args _) => args.map .term
  | .literal _ _ => []
  | .predicate _ args _ => args.map .term
  | .neg argument _ => [argument]
  | .binary _ left right _ => [left, right]
  | .group body _ => [body]
  | .quantified _ bound body _ => [.term (.var bound), body]

/-- The second formula is a node of the first. -/
inductive HasNode : Formula → Formula → Prop where
  /-- A formula is a node of itself. -/
  | root {f : Formula} : HasNode f f
  /-- A node of a child is a node of the formula. -/
  | inner {f child node : Formula} (member : child ∈ f.children) (hasNode : HasNode child node) :
      HasNode f node

end Formula

/-- The nodes that a phrase consists of, or the nodes right below its only one. -/
def Phrase.parts : Phrase → List Formula
  | .term t => (Formula.term t).children
  | .arguments args => args.map .term
  | .primary f | .chain f | .formula f => f.children

/-!
### Nodes and stretches of tokens
-/

/-- Among the tokens are stretches that spell the formulas, one behind the other. -/
inductive Segmented : List Token → List Formula → Prop where
  | nil {tokens : List Token} : Segmented tokens []
  | cons {used rest : List Token} {f : Formula} {fs : List Formula} (gap : List Token)
      (spelled : Spells used (.formula f)) (others : Segmented rest fs) :
      Segmented (gap ++ used ++ rest) (f :: fs)

namespace Segmented

variable {tokens : List Token} {fs : List Formula}

/-- Tokens that spell a formula, and others in front of them. -/
theorem last {used : List Token} {f : Formula} (gap : List Token)
    (spelled : Spells used (.formula f)) : Segmented (gap ++ used) [f] := by
  have whole := cons gap spelled (nil : Segmented [] [])
  rwa [List.append_nil] at whole

/-- More tokens in front do no harm. -/
theorem prepend (before : List Token) (segmented : Segmented tokens fs) :
    Segmented (before ++ tokens) fs := by
  cases segmented with
  | nil => exact .nil
  | cons gap spelled others =>
      have whole := cons (before ++ gap) spelled others
      rwa [List.append_assoc, List.append_assoc, ← List.append_assoc gap] at whole

/-- More tokens behind do no harm. -/
theorem append (after : List Token) (segmented : Segmented tokens fs) :
    Segmented (tokens ++ after) fs := by
  induction segmented with
  | nil => exact .nil
  | cons gap spelled others ih =>
      rw [List.append_assoc]
      exact .cons gap spelled ih

/-- Each of the formulas is spelled by a stretch of the tokens. -/
theorem exists_infix (segmented : Segmented tokens fs) :
    ∀ f ∈ fs, ∃ used, used <:+: tokens ∧ Spells used (.formula f) := by
  induction segmented with
  | nil => simp
  | @cons used rest f fs gap spelled others ih =>
      intro g member
      rcases List.mem_cons.1 member with rfl | member
      · exact ⟨used, ⟨gap, rest, rfl⟩, spelled⟩
      · obtain ⟨used', inside, spelled'⟩ := ih g member
        exact ⟨used', inside.trans (List.suffix_append _ rest).isInfix, spelled'⟩

end Segmented

namespace Spells

variable {tokens : List Token} {phrase : Phrase}

/-- A term is a formula. -/
theorem formula_of_term {t : Term} (spelled : Spells tokens (.term t)) :
    Spells tokens (.formula (.term t)) :=
  .ofChain (.ofPrimary (.ofTerm spelled))

/-- The nodes right below a phrase are spelled by stretches of its tokens. -/
theorem segmented (spelled : Spells tokens phrase) : Segmented tokens phrase.parts := by
  induction spelled with
  | var named => exact .nil
  | @app head opening closing name inner args named opens arguments closes ih =>
      exact (ih.prepend [head, opening]).append [closing]
  | argument term ih => exact .last [] term.formula_of_term
  | @moreArguments first rest comma t ts term separates others ih ihs =>
      exact .cons [] term.formula_of_term (ihs.prepend [comma])
  | ofTerm term ih => exact ih
  | literal valued => exact .nil
  | proposition named => exact .nil
  | emptyArguments named opens closes => exact .nil
  | @predicate head opening closing name inner args named opens arguments closes ih =>
      exact (ih.prepend [head, opening]).append [closing]
  | @neg sign tokens f negates argument ih => exact .last [sign] argument.ofPrimary.ofChain
  | @group opening closing tokens f opens body closes ih => exact .cons [opening] body .nil
  | @quantified sign variableToken q name tokens f quantifies named body ih =>
      exact .cons [sign] (var named).formula_of_term (.last [] body.ofPrimary.ofChain)
  | ofPrimary primary ih => exact ih
  | @joined left right sign c f g first joins monotone rest ih ihs =>
      exact .cons [] first.ofPrimary.ofChain (.last [sign] rest.ofChain)
  | ofChain chain ih => exact ih
  | @implies left right sign f g premise joins conclusion ih ihs =>
      exact .cons [] premise.ofChain (.last [sign] conclusion)

/-- No phrase ends in a function symbol, which has its arguments behind it. -/
theorem exists_last (spelled : Spells tokens phrase) :
    ∃ last, tokens.getLast? = some last ∧ last.lexeme.tokenClass ≠ .function := by
  induction spelled with
  | @var token name named | @literal token name named | @proposition token name named =>
      exact ⟨token, rfl, by simp [named, Lexeme.tokenClass]⟩
  | @app head opening closing name inner args named opens arguments closes ih
  | @predicate head opening closing name inner args named opens arguments closes ih =>
      exact ⟨closing, List.getLast?_concat, by rw [closes]; decide⟩
  | @emptyArguments head opening closing name named opens closes =>
      exact ⟨closing, rfl, by rw [closes]; decide⟩
  | @group opening closing tokens f opens body closes ih =>
      exact ⟨closing, List.getLast?_concat, by rw [closes]; decide⟩
  | argument term ih => exact ih
  | ofTerm term ih => exact ih
  | ofPrimary primary ih => exact ih
  | ofChain chain ih => exact ih
  | neg negates argument ih =>
      obtain ⟨last, ends, notFunction⟩ := ih
      exact ⟨last, by simp [List.getLast?_cons, ends], notFunction⟩
  | quantified quantifies named body ih =>
      obtain ⟨last, ends, notFunction⟩ := ih
      exact ⟨last, by simp [List.getLast?_cons, ends], notFunction⟩
  | moreArguments first joins rest ih ihs | joined first joins monotone rest ih ihs
  | implies first joins rest ih ihs =>
      obtain ⟨last, ends, notFunction⟩ := ihs
      exact ⟨last, by simp [List.getLast?_append, List.getLast?_cons, ends], notFunction⟩

end Spells

/-- A node is spelled by a stretch of the tokens of the whole. -/
theorem Formula.HasNode.spelled {f node : Formula} (hasNode : f.HasNode node)
    {tokens : List Token} (spelled : Spells tokens (.formula f)) :
    ∃ used, used <:+: tokens ∧ Spells used (.formula node) := by
  induction hasNode generalizing tokens with
  | root => exact ⟨tokens, List.infix_rfl, spelled⟩
  | inner member hasNode ih =>
      obtain ⟨part, within, spelledPart⟩ := spelled.segmented.exists_infix _ member
      obtain ⟨used, within', spelledNode⟩ := ih spelledPart
      exact ⟨used, within'.trans within, spelledNode⟩

/-!
### Ranges
-/

namespace Span

/-- The range lies between two places. -/
def Within (span : Span) (start stop : Nat) : Prop :=
  ∃ first last, span = .between first last ∧ start ≤ first ∧ first ≤ last ∧ last ≤ stop

/-- The first range ends where the second one starts, or in front of it. -/
def Before (span next : Span) : Prop :=
  ∃ stop start, span.stop = some stop ∧ next.start = some start ∧ stop ≤ start

end Span

/-- Tokens that spell a formula give it the range from the first of them to the last. -/
theorem Spells.exists_span {tokens : List Token} {f : Formula}
    (spelled : Spells tokens (.formula f)) :
    ∃ first last, tokens.head? = some first ∧ tokens.getLast? = some last ∧
      f.span = .between first.start last.stop := by
  obtain ⟨last, ends, -⟩ := spelled.exists_last
  obtain ⟨first, tail, split⟩ := List.exists_cons_of_ne_nil spelled.ne_nil
  have starts : tokens.head? = some first := by rw [split]; rfl
  refine ⟨first, last, starts, ends, ?_⟩
  rw [spelled.span_eq, Token.range, starts, ends]
  rfl

/-- The range of a node lies within that of every stretch of tokens that contains its own. -/
theorem Spells.within {used tokens : List Token} {f : Formula} {first last : Token}
    (spelled : Spells used (.formula f)) (inside : used <:+: tokens) (inOrder : InOrder tokens)
    (starts : tokens.head? = some first) (ends : tokens.getLast? = some last) :
    f.span.Within first.start last.stop := by
  obtain ⟨first', last', starts', ends', span⟩ := spelled.exists_span
  have memberFirst := List.mem_of_mem_head? (Option.mem_def.2 starts')
  have memberLast := List.mem_of_getLast? ends'
  have filled := inOrder.filled first' (inside.subset memberFirst)
  refine ⟨first'.start, last'.stop, span, ?_, ?_, ?_⟩
  · exact inOrder.start_le starts first' (inside.subset memberFirst)
  · exact Nat.le_trans (Nat.le_of_lt filled)
      ((inOrder.of_infix inside).stop_le ends' first' memberFirst)
  · exact inOrder.stop_le ends last' (inside.subset memberLast)

/-- Stretches of tokens in order give their formulas ranges in order. -/
theorem Segmented.apart {tokens : List Token} {fs : List Formula}
    (segmented : Segmented tokens fs) (inOrder : InOrder tokens) :
    fs.Pairwise fun f g => f.span.Before g.span := by
  induction segmented with
  | nil => exact List.Pairwise.nil
  | @cons used rest f fs gap spelled others ih =>
      have behind : InOrder rest := inOrder.of_infix (List.suffix_append _ rest).isInfix
      refine List.Pairwise.cons ?_ (ih behind)
      intro g member
      obtain ⟨used', inside, spelled'⟩ := others.exists_infix g member
      obtain ⟨_, last, -, ends, span⟩ := spelled.exists_span
      obtain ⟨first, _, starts, -, span'⟩ := spelled'.exists_span
      have before := (List.pairwise_append.1 inOrder.apart).2.2 last
        (List.mem_append_right gap (List.mem_of_getLast? ends)) first
        (inside.subset (List.mem_of_mem_head? (Option.mem_def.2 starts)))
      rw [span, span']
      exact ⟨last.stop, first.start, rfl, rfl, before⟩

namespace Formula

/-- The range of a node is exact: it lies in the text, it contains the ranges of the children one
behind the other, and its characters alone are read as the node. -/
structure RangeExact (text : String) (node : Formula) (start stop : Nat) : Prop where
  span : node.span = .between start stop
  ordered : start ≤ stop
  bounded : stop ≤ text.length
  inside : ∀ child ∈ node.children, child.span.Within start stop
  apart : node.children.Pairwise fun f g => f.span.Before g.span
  reread : ∃ g, parse (String.ofList (text.toList.extract start stop)) = .ok g ∧ g.SameAs node

/-- The range of a node that is spelled by a stretch of the tokens of a text is exact. -/
theorem rangeExact_of_spells {text : String} {node : Formula} {tokens used : List Token}
    (scanned : scan text = .ok tokens) (inside : used <:+: tokens)
    (spelled : Spells used (.formula node)) :
    ∃ start stop, node.RangeExact text start stop := by
  have consists := scanFrom_eq_ok_iff.1 scanned
  have inOrder := consists.inOrder.of_infix inside
  obtain ⟨first, last, starts, ends, span⟩ := spelled.exists_span
  have memberLast := List.mem_of_getLast? ends
  refine ⟨first.start, last.stop, span, ?_, ?_, ?_, ?_, ?_⟩
  · obtain ⟨start, stop, -, startLe, le, stopLe⟩ :=
      spelled.within List.infix_rfl inOrder starts ends
    exact Nat.le_trans startLe (Nat.le_trans le stopLe)
  · have bounded := (consists.within last (inside.subset memberLast)).2.2
    rwa [Nat.zero_add, String.length_toList] at bounded
  · intro child member
    obtain ⟨part, within, spelledPart⟩ := spelled.segmented.exists_infix child member
    exact spelledPart.within within inOrder starts ends
  · exact spelled.segmented.apart inOrder
  · -- A function symbol at the end would lose its parenthesis, and be read as a variable.
    obtain ⟨last', ends', notFunction⟩ := spelled.exists_last
    obtain rfl : last' = last := Option.some.inj (ends'.symm.trans ends)
    obtain ⟨before, after, rfl⟩ := inside
    obtain ⟨tokens', scanned', same⟩ := consists.extract starts ends notFunction
    obtain ⟨g, spelled', sameTree⟩ := spelled.of_lexemes_eq same
    refine ⟨g, parse_eq_ok_iff.2 ⟨tokens', ?_, Or.inr spelled'⟩, sameTree⟩
    rw [scan, String.toList_ofList]
    exact scanFrom_eq_ok_iff.2 scanned'

/-- Every node of a formula that was read has an exact range. -/
theorem rangeExact_of_parse {text : String} {f node : Formula} (parsed : parse text = .ok f)
    (hasNode : f.HasNode node) : ∃ start stop, node.RangeExact text start stop := by
  obtain ⟨tokens, scanned, ⟨-, rfl⟩ | spelled⟩ := parse_eq_ok_iff.1 parsed
  · cases hasNode with
    | root =>
        refine ⟨0, 0, rfl, Nat.le_refl 0, Nat.zero_le _, ?_, List.Pairwise.nil, ?_⟩
        · intro child member
          cases member
        · have blank : parse (String.ofList (text.toList.extract 0 0)) =
              .ok (.empty (.between 0 0)) :=
            parse_eq_ok_iff.2 ⟨[], by simp [scan, scanFrom], .inl ⟨rfl, rfl⟩⟩
          exact ⟨_, blank, SameAs.rfl⟩
    | inner member hasNode => cases member
  · obtain ⟨used, inside, spelledNode⟩ := hasNode.spelled spelled
    exact rangeExact_of_spells scanned inside spelledNode

/-- The argument `f(x)` of ` A.x (P( f(x),y ) -> !Q) `. -/
def innermostArgument : Term :=
  .app "f" [.var { name := "x", span := .between 11 12 }] (.between 9 13)

/-- The formula ` A.x (P( f(x),y ) -> !Q) `, read with the blanks around it. -/
def blanksThroughout : Formula :=
  .quantified .universal { name := "x", span := .between 3 4 }
    (.group
      (.binary .implication
        (.predicate "P" [innermostArgument, .var { name := "y", span := .between 14 15 }]
          (.between 6 17))
        (.neg (.predicate "Q" [] (.between 22 23)) (.between 21 23)) (.between 6 23))
      (.between 5 24))
    (.between 1 24)

theorem rangeExact_of_parse_blanksThroughout :
    parse " A.x (P( f(x),y ) -> !Q) " = .ok blanksThroughout ∧
      blanksThroughout.HasNode (.term innermostArgument) ∧
      ∃ start stop, RangeExact " A.x (P( f(x),y ) -> !Q) " (.term innermostArgument) start stop := by
  have parsed : parse " A.x (P( f(x),y ) -> !Q) " = .ok blanksThroughout := by decide +kernel
  have hasNode : blanksThroughout.HasNode (.term innermostArgument) :=
    .inner (List.mem_cons_of_mem _ List.mem_cons_self) <| .inner List.mem_cons_self <|
      .inner List.mem_cons_self <| .inner List.mem_cons_self .root
  exact ⟨parsed, hasNode, rangeExact_of_parse parsed hasNode⟩

end Formula

end PredicateLogic
