/-
Module: PredicateLogic.Proofs.ParserGrammar
Purpose: The parser accepts exactly the texts of the grammar, and builds their trees.
  What is spelled is read wherever the tokens behind it let the phrase end (`Spells.readable`).
  With the soundness of the readers this makes the parser a decision procedure for the grammar, and
  since a list of tokens is read in one way only, the grammar is unambiguous.
Main exports: Phrase.Readable, Spells.readable, Formula.Spelled, Formula.ofTokens_eq_ok_iff,
  Formula.parse_eq_ok_iff, Formula.ofTokens_grammar
-/
import PredicateLogic.Proofs.ParserSoundness

namespace PredicateLogic

open PredicateLogic.Parser

/-!
### What is spelled is read

A primary formula must not be followed by an opening parenthesis, or a predicate symbol at its end
would take it for its own.  A chain must not be followed by a connective that goes on with it, and a
formula by no connective that its reader would take.  A chain can be the left side of an
implication, so what is read from the chain on is left open.
-/

/-- The tokens are read as the phrase, whatever comes after them that lets the phrase end. -/
def Phrase.Readable (stop : Nat) (tokens : List Token) : Phrase → Prop
  | .term t => ∀ rest, Reads (Parser.primary stop (tokens ++ rest)) (.term t) rest
  | .arguments args => ∀ owner rest, nextClass rest = .rightParen →
      Reads (Parser.terms stop owner (tokens ++ rest)) args rest
  | .primary f => ∀ rest, nextClass rest ≠ .leftParen →
      Reads (Parser.primary stop (tokens ++ rest)) f rest
  | .chain f => ∀ power rest, power < 50 → (nextClass rest).bindingPower < 50 →
      nextClass rest ≠ .leftParen → ∀ whole final,
        Reads (Parser.chainFrom stop power f rest) whole final →
          Reads (Parser.chain stop power (tokens ++ rest)) whole final
  | .formula f => ∀ power rest, power < 40 → (nextClass rest).bindingPower ≤ power →
      nextClass rest ≠ .leftParen → Reads (Parser.chain stop power (tokens ++ rest)) f rest

namespace Spells

variable {tokens rest : List Token} {stop power : Nat} {f : Formula} {t : Term}

/-- A primary formula is a chain where no connective follows that the power lets in. -/
theorem reads_chain_of_primary (reads : Reads (Parser.primary stop tokens) f rest)
    (ends : (nextClass rest).bindingPower ≤ power) :
    Reads (Parser.chain stop power tokens) f rest :=
  reads_chain.2 ⟨f, rest, reads, (reads_chainFrom_stop ends).2 ⟨rfl, rfl⟩⟩

/-- The arguments of a name are followed by the parenthesis that closes them, and no such
parenthesis stands in front of them. -/
theorem filled {args : List Term} (spelled : Spells tokens (.arguments args)) (rest : List Token) :
    nextClass (tokens ++ rest) ≠ .rightParen := by
  intro closes
  rcases spelled.nextClass_eq rest with named | named
  · cases closes.symm.trans named
  · cases closes.symm.trans named

/-- What is spelled is read. -/
theorem readable {phrase : Phrase} (stop : Nat) (spelled : Spells tokens phrase) :
    phrase.Readable stop tokens := by
  induction spelled with
  | var named =>
      intro rest
      exact (reads_primary_var named).2 ⟨rfl, rfl⟩
  | @app head opening closing name inner args named opens arguments closes ih =>
      intro rest
      have argsRead := ih .function (closing :: rest) (nextClass_cons closes rest)
      rw [range_enclosed head closing (opening :: inner), List.append_assoc]
      exact (reads_primary_function_arguments named opens (arguments.filled _)).2
        ⟨args, closing, argsRead, closes, rfl⟩
  | @argument tokens t term ih =>
      intro owner rest closes
      apply reads_terms.2
      refine ⟨t, rest, ?_, Or.inl ⟨?_, rfl, rfl⟩⟩
      · exact reads_chain_of_primary (ih rest) (by simp [closes, TokenClass.bindingPower])
      · simp [closes]
  | @moreArguments first others comma t ts term separates arguments ih ihs =>
      intro owner rest closes
      have next : nextClass (comma :: others ++ rest) = .comma := nextClass_cons separates _
      rw [List.append_assoc]
      apply reads_terms.2
      refine ⟨t, comma :: others ++ rest, ?_, Or.inr ?_⟩
      · exact reads_chain_of_primary (ih _) (by rw [next]; decide)
      · exact ⟨comma, others ++ rest, ts, rfl, separates, ihs owner rest closes, rfl⟩
  | ofTerm term ih =>
      intro rest _
      exact ih rest
  | literal valued =>
      intro rest _
      exact (reads_primary_literal valued).2 ⟨rfl, rfl⟩
  | proposition named =>
      intro rest alone
      exact (reads_primary_predicate_alone named alone).2 ⟨rfl, rfl⟩
  | emptyArguments named opens closes =>
      intro rest _
      exact (reads_primary_predicate_empty named opens closes).2 ⟨rfl, rfl⟩
  | @predicate head opening closing name inner args named opens arguments closes ih =>
      intro rest _
      have argsRead := ih .predicate (closing :: rest) (nextClass_cons closes rest)
      rw [range_enclosed head closing (opening :: inner), List.append_assoc]
      exact (reads_primary_predicate_arguments named opens (arguments.filled _)).2
        ⟨args, closing, argsRead, closes, rfl⟩
  | @neg sign tokens f negates argument ih =>
      intro rest alone
      apply (reads_primary_negation negates).2
      refine ⟨f, ?_, ?_⟩
      · exact reads_chain_of_primary (ih rest alone)
          (Nat.le_trans (bindingPower_nextClass_le rest) (by decide))
      · rw [argument.spanTo_eq sign []]
        rfl
  | @group opening closing tokens f opens body closes ih =>
      intro rest _
      have next : nextClass (closing :: rest) = .rightParen := nextClass_cons closes rest
      have bodyRead := ih 0 (closing :: rest) (by decide) (by rw [next]; decide)
        (by rw [next]; decide)
      rw [range_enclosed, List.append_assoc]
      exact (reads_primary_leftParen opens).2 ⟨f, closing, bodyRead, closes, rfl⟩
  | @quantified sign variableToken q name tokens f quantifies named body ih =>
      intro rest alone
      apply (reads_primary_quantifier quantifies named).2
      refine ⟨f, ih rest alone, ?_⟩
      rw [body.spanTo_eq sign [variableToken]]
      rfl
  | @ofPrimary tokens f primary ih =>
      intro power rest _ _ alone whole final reads
      exact reads_chain.2 ⟨f, rest, ih rest alone, reads⟩
  | @joined left right sign c f g first joins monotone second ih ihs =>
      intro power rest low ends alone whole final reads
      have next : nextClass (sign :: right ++ rest) = .connective c := nextClass_cons joins _
      have tight : c.bindingPower = 50 := by
        cases c with
        | implication => exact absurd rfl monotone
        | conjunction | disjunction => rfl
      have rightRead := ihs 49 rest (by decide) ends alone g rest
        ((reads_chainFrom_stop (Nat.le_of_lt_succ ends)).2 ⟨rfl, rfl⟩)
      have leftRead := ih (sign :: right ++ rest) (by rw [next]; simp)
      rw [List.append_assoc]
      apply reads_chain.2
      refine ⟨f, _, leftRead, ?_⟩
      apply (reads_chainFrom_connective joins (tight ▸ low)).2
      refine ⟨g, rest, tight ▸ rightRead, ?_⟩
      rw [range_append sign first.ne_nil second.ne_nil, ← first.span_eq, ← second.span_eq] at reads
      exact reads
  | @ofChain tokens f chain ih =>
      intro power rest low ends alone
      exact ih power rest (Nat.lt_trans low (by decide)) (by omega) alone f rest
        ((reads_chainFrom_stop ends).2 ⟨rfl, rfl⟩)
  | @implies left right sign f g premise joins conclusion ih ihs =>
      intro power rest low ends alone
      have next : nextClass (sign :: right ++ rest) = .connective .implication :=
        nextClass_cons joins _
      have rightRead := ihs 39 rest (by decide) (by omega) alone
      rw [List.append_assoc]
      apply ih power (sign :: right ++ rest) (Nat.lt_trans low (by decide))
        (by rw [next]; decide) (by rw [next]; decide)
      apply (reads_chainFrom_connective joins low).2
      refine ⟨g, rest, rightRead, ?_⟩
      rw [range_append sign premise.ne_nil conclusion.ne_nil, ← premise.span_eq,
        ← conclusion.span_eq]
      exact (reads_chainFrom_stop ends).2 ⟨rfl, rfl⟩

end Spells

/-!
### Whole texts

A text without tokens is the empty formula.  Any other text has to be a formula from its first token
to its last.
-/

/-- The tokens of a text spell the formula. -/
def Formula.Spelled (tokens : List Token) (f : Formula) : Prop :=
  (tokens = [] ∧ f = .empty (.between 0 0)) ∨ Spells tokens (.formula f)

namespace Formula

variable {tokens : List Token} {f g : Formula} {stop : Nat}

/-- Where there are tokens, the parser reads a chain and no token is left. -/
theorem ofTokens_cons_eq_ok_iff {token : Token} {tail : List Token} :
    ofTokens stop (token :: tail) = .ok f ↔ Reads (Parser.chain stop 0 (token :: tail)) f [] := by
  unfold ofTokens
  cases outcome : Parser.chain stop 0 (token :: tail) with
  | error error =>
      simp [Reads, bind, Except.bind]
  | ok whole =>
      cases left : whole.rest with
      | nil => simp [Reads, bind, Except.bind, left, pure, Except.pure, eq_comm]
      | cons next rest => simp [Reads, bind, Except.bind, left]

/-- The parser succeeds with the formulas that the tokens spell, and with no others. -/
theorem ofTokens_eq_ok_iff : ofTokens stop tokens = .ok f ↔ Spelled tokens f := by
  cases tokens with
  | nil =>
      constructor
      · intro parsed
        cases parsed
        exact Or.inl ⟨rfl, rfl⟩
      · rintro (⟨-, rfl⟩ | spelled)
        · rfl
        · exact absurd rfl spelled.ne_nil
  | cons token tail =>
      rw [ofTokens_cons_eq_ok_iff]
      constructor
      · intro reads
        obtain ⟨used, split, spelled, -⟩ := (soundBelow stop _).chain (Nat.lt_succ_self _) reads
        rw [List.append_nil] at split
        rw [split]
        exact Or.inr spelled
      · rintro (⟨empty, -⟩ | spelled)
        · cases empty
        · have reads := spelled.readable stop 0 [] (by decide) (by decide) (by decide)
          rwa [List.append_nil] at reads

/-- A text is parsed when it is scanned and its tokens spell a formula. -/
theorem parse_eq_ok_iff {text : String} :
    parse text = .ok f ↔ ∃ tokens, Token.scan text = .ok tokens ∧ Spelled tokens f := by
  unfold parse
  cases scanned : Token.scan text with
  | error illegal => simp
  | ok tokens => simp [ofTokens_eq_ok_iff]

/-- The tokens of a text stand for one formula at most. -/
theorem Spelled.unique (left : Spelled tokens f) (right : Spelled tokens g) : f = g := by
  have first : ofTokens 0 tokens = .ok f := ofTokens_eq_ok_iff.2 left
  have second : ofTokens 0 tokens = .ok g := ofTokens_eq_ok_iff.2 right
  exact Except.ok.inj (first.symm.trans second)

/-- The parser accepts exactly the grammar and builds its tree.  It succeeds with a formula exactly
when the tokens spell it, they spell one formula at most, and where they spell none it fails. -/
theorem ofTokens_grammar (stop : Nat) (tokens : List Token) :
    (∀ f, ofTokens stop tokens = .ok f ↔ Spelled tokens f) ∧
    (∀ f g, Spelled tokens f → Spelled tokens g → f = g) ∧
    ((∀ f, ¬ Spelled tokens f) → ∃ error, ofTokens stop tokens = .error error) := by
  refine ⟨fun f => ofTokens_eq_ok_iff, fun f g => Spelled.unique, ?_⟩
  intro none
  cases parsed : ofTokens stop tokens with
  | error error => exact ⟨error, rfl⟩
  | ok f => exact absurd (ofTokens_eq_ok_iff.1 parsed) (none f)

end Formula

end PredicateLogic
