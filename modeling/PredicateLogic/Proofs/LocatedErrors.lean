/-
Module: PredicateLogic.Proofs.LocatedErrors
Purpose: Every error of the parser is about a place of the text where its reason can be seen.
  An error of a reader is about the tokens that the reader was given (`ParseError.LiesIn`): a token
  that was found where another was needed stands among them or the text ends there, an argument that
  is no term starts behind a parenthesis or a comma, and a function symbol without arguments has an
  empty pair of parentheses.  This is an invariant of the readers, as the tokens that one hands on
  to another are the last ones of its own.
Main exports: TokenClass.FoundAt, ParseError.LiesIn, Parser.LocatedBelow, Parser.locatedBelow,
  Token.illegal_of_scanFrom, ParseError.LocatedIn, Formula.locatedIn_of_parse,
  Source.parse_text_located
-/
import PredicateLogic.Source
import PredicateLogic.Proofs.ParserSoundness
import PredicateLogic.Proofs.Refusals
import PredicateLogic.Proofs.ScannedText

namespace PredicateLogic

open PredicateLogic.Parser

variable {stop bound power : Nat} {tokens tokens' rest : List Token} {error : ParseError}

/-!
### Errors about tokens
-/

/-- The class is what was found at a position: a token of the class starts there, or it is the end
of the text. -/
def TokenClass.FoundAt (stop : Nat) (tokens : List Token) (found : TokenClass) (position : Nat) :
    Prop :=
  (found = .endOfText ∧ position = stop) ∨
    ∃ token ∈ tokens, token.lexeme.tokenClass = found ∧ token.start = position

/-- What stands at the front of the last tokens was found there. -/
theorem TokenClass.foundAt_next (behind : rest <:+ tokens) :
    (nextClass rest).FoundAt stop tokens (nextStart stop rest) := by
  cases rest with
  | nil => exact Or.inl ⟨rfl, rfl⟩
  | cons token tail => exact Or.inr ⟨token, behind.subset List.mem_cons_self, rfl, rfl⟩

namespace ParseError

/-- The tokens have a place that the error is about, and its reason can be seen there. -/
def LiesIn (stop : Nat) (tokens : List Token) : ParseError → Prop
  | .illegalCharacter _ _ => False
  | .expected _ found position => found.FoundAt stop tokens position
  | .unexpected found position => found.FoundAt stop tokens position
  | .missingVariable found position => found.FoundAt stop tokens position
  | .invalidArgument _ _ position =>
      ∃ opener token, [opener, token] <:+: tokens ∧
        (opener.lexeme = .leftParen ∨ opener.lexeme = .comma) ∧ token.start = position
  | .emptyArguments position =>
      ∃ head name opening close, [head, opening, close] <:+: tokens ∧
        head.lexeme = .function name ∧ opening.lexeme = .leftParen ∧
        close.lexeme = .rightParen ∧ head.start = position

/-- An error about some neighbouring tokens is one about all of them. -/
theorem LiesIn.mono (lies : error.LiesIn stop tokens) (within : tokens <:+: tokens') :
    error.LiesIn stop tokens' := by
  have found {c : TokenClass} {position : Nat} (here : c.FoundAt stop tokens position) :
      c.FoundAt stop tokens' position := by
    rcases here with ends | ⟨token, member, starts⟩
    · exact Or.inl ends
    · exact Or.inr ⟨token, within.subset member, starts⟩
  cases error with
  | illegalCharacter c position => exact lies
  | expected wanted c position => exact found lies
  | unexpected c position => exact found lies
  | missingVariable c position => exact found lies
  | invalidArgument owner got position =>
      obtain ⟨opener, token, pair, opens⟩ := lies
      exact ⟨opener, token, pair.trans within, opens⟩
  | emptyArguments position =>
      obtain ⟨head, name, opening, close, group, named⟩ := lies
      exact ⟨head, name, opening, close, group.trans within, named⟩

theorem LiesIn.suffix (lies : error.LiesIn stop rest) (behind : rest <:+ tokens) :
    error.LiesIn stop tokens :=
  lies.mono behind.isInfix

end ParseError

/-!
### Errors of the readers
-/

namespace Parser

/-- A parenthesis that is not closed is missed where the last tokens start. -/
theorem liesIn_of_closing (failed : closing stop rest = .error error) (behind : rest <:+ tokens) :
    error.LiesIn stop tokens := by
  obtain ⟨-, rfl⟩ := closing_eq_error.1 failed
  exact TokenClass.foundAt_next behind

/-- From fewer than `bound` tokens, every reader fails with an error about its tokens, and the
reader of arguments with one about them and what they follow. -/
structure LocatedBelow (stop bound : Nat) : Prop where
  primary {tokens : List Token} {error : ParseError} :
    tokens.length < bound → primary stop tokens = .error error → error.LiesIn stop tokens
  chain {tokens : List Token} {error : ParseError} {power : Nat} :
    tokens.length < bound → chain stop power tokens = .error error → error.LiesIn stop tokens
  terms {tokens : List Token} {error : ParseError} {owner : ArgumentOwner} {opener : Token} :
    tokens.length < bound → (opener.lexeme = .leftParen ∨ opener.lexeme = .comma) →
      terms stop owner tokens = .error error → error.LiesIn stop (opener :: tokens)

namespace LocatedBelow

/-- A name is refused for its arguments, or for the parenthesis that closes them. -/
theorem arguments_step {owner : ArgumentOwner} {head opening : Token} {tail : List Token}
    (below : LocatedBelow stop bound) (shorter : tail.length < bound)
    (opens : opening.lexeme = .leftParen)
    (failed : Parser.terms stop owner tail = .error error ∨
      ∃ args rest, Reads (Parser.terms stop owner tail) args rest ∧
        closing stop rest = .error error) :
    error.LiesIn stop (head :: opening :: tail) := by
  rcases failed with failed | ⟨args, rest, reads, failed⟩
  · exact (below.terms shorter (Or.inl opens) failed).suffix (List.suffix_cons head _)
  · have behind := suffix_of_reads_terms reads
    exact (liesIn_of_closing failed behind).suffix
      ((List.suffix_cons opening tail).trans (List.suffix_cons head _))

theorem predicate_step {token : Token} {tail : List Token} {name : String}
    (below : LocatedBelow stop bound) (shorter : tail.length < bound)
    (named : token.lexeme = .predicate name)
    (failed : Parser.primary stop (token :: tail) = .error error) :
    error.LiesIn stop (token :: tail) := by
  by_cases opened : nextClass tail = .leftParen
  · obtain ⟨opening, inside, rfl, opens⟩ := exists_of_nextClass (l := .leftParen) rfl opened
    by_cases closed : nextClass inside = .rightParen
    · obtain ⟨close, after, rfl, closes⟩ := exists_of_nextClass (l := .rightParen) rfl closed
      exact absurd failed (primary_predicate_empty_ne_error named opens closes)
    · exact below.arguments_step (Nat.lt_trans (Nat.lt_succ_self _) shorter) opens
        ((primary_predicate_arguments_eq_error named opens closed).1 failed)
  · exact absurd failed (primary_predicate_alone_ne_error named opened)

theorem function_step {token : Token} {tail : List Token} {name : String}
    (below : LocatedBelow stop bound) (shorter : tail.length < bound)
    (named : token.lexeme = .function name)
    (failed : Parser.primary stop (token :: tail) = .error error) :
    error.LiesIn stop (token :: tail) := by
  by_cases opened : nextClass tail = .leftParen
  · obtain ⟨opening, inside, rfl, opens⟩ := exists_of_nextClass (l := .leftParen) rfl opened
    by_cases closed : nextClass inside = .rightParen
    · obtain ⟨close, after, rfl, closes⟩ := exists_of_nextClass (l := .rightParen) rfl closed
      rw [(primary_function_empty_eq_error named opens closes).1 failed]
      exact ⟨token, name, opening, close, List.infix_append [] _ after, named, opens, closes, rfl⟩
    · exact below.arguments_step (Nat.lt_trans (Nat.lt_succ_self _) shorter) opens
        ((primary_function_arguments_eq_error named opens closed).1 failed)
  · rw [(primary_function_alone_eq_error named opened).1 failed]
    exact TokenClass.foundAt_next (List.suffix_cons token tail)

/-- A primary formula, by the lexeme that it starts with. -/
theorem primary_step (below : LocatedBelow stop bound) (short : tokens.length ≤ bound)
    (failed : Parser.primary stop tokens = .error error) : error.LiesIn stop tokens := by
  by_cases refused : (nextClass tokens).startsFormula = false
  · rw [(primary_eq_error refused).1 failed]
    exact TokenClass.foundAt_next (List.suffix_refl tokens)
  cases tokens with
  | nil => exact absurd rfl refused
  | cons token tail =>
      have shorter : tail.length < bound := short
      have inside : tail <:+ token :: tail := List.suffix_cons token tail
      cases named : token.lexeme with
      | var name => exact absurd failed (primary_var_ne_error named)
      | literal value => exact absurd failed (primary_literal_ne_error named)
      | predicate name => exact below.predicate_step shorter named failed
      | function name => exact below.function_step shorter named failed
      | negation =>
          exact (below.chain shorter ((primary_negation_eq_error named).1 failed)).suffix inside
      | leftParen =>
          rcases (primary_leftParen_eq_error named).1 failed with failed | ⟨_, _, reads, failed⟩
          · exact (below.chain shorter failed).suffix inside
          · exact liesIn_of_closing failed ((suffix_of_reads_chain reads).trans inside)
      | quantifier q =>
          by_cases followed : nextClass tail = .var
          · obtain ⟨variableToken, name, after, rfl, isVariable⟩ := exists_var_of_nextClass followed
            have failed := (primary_quantifier_eq_error named isVariable).1 failed
            exact (below.primary (Nat.lt_trans (Nat.lt_succ_self _) shorter) failed).suffix
              ((List.suffix_cons variableToken after).trans inside)
          · rw [(primary_quantifier_alone_eq_error named followed).1 failed]
            exact TokenClass.foundAt_next inside
      | connective c | rightParen | comma => exact absurd (by rw [nextClass, named]; rfl) refused

/-- The loop over connectives hands on fewer and fewer of its tokens. -/
theorem chainFrom_step {left : Formula} (below : LocatedBelow stop bound)
    (short : tokens.length ≤ bound)
    (failed : Parser.chainFrom stop power left tokens = .error error) :
    error.LiesIn stop tokens := by
  induction size : tokens.length using Nat.strongRecOn generalizing tokens left with
  | ind size ih =>
      rcases Nat.lt_or_ge power (nextClass tokens).bindingPower with tighter | loose
      · obtain ⟨sign, tail, c, rfl, joins⟩ := exists_connective_of_bindingPower tighter
        have inside : tail <:+ sign :: tail := List.suffix_cons sign tail
        have tighter' : power < c.bindingPower := by
          rwa [nextClass_cons joins] at tighter
        rcases (chainFrom_connective_eq_error joins tighter').1 failed with
          failed | ⟨right, rest, reads, failed⟩
        · exact (below.chain short failed).suffix inside
        · have rightShort := reads.short
          rw [List.length_cons] at size short
          have within := ih rest.length (by omega) (by omega) failed rfl
          exact within.suffix ((suffix_of_reads_chain reads).trans inside)
      · exact absurd failed (chainFrom_stop_ne_error loose)

theorem chain_step (below : LocatedBelow stop bound) (short : tokens.length ≤ bound)
    (failed : Parser.chain stop power tokens = .error error) : error.LiesIn stop tokens := by
  rcases chain_eq_error.1 failed with failed | ⟨first, rest, reads, failed⟩
  · exact below.primary_step short failed
  · have firstShort := reads.short
    exact (below.chainFrom_step (by omega) failed).suffix (suffix_of_reads_primary reads)

/-- An argument that is no term starts right behind what the arguments follow. -/
theorem terms_step {owner : ArgumentOwner} {opener : Token} (below : LocatedBelow stop bound)
    (short : tokens.length ≤ bound)
    (opens : opener.lexeme = .leftParen ∨ opener.lexeme = .comma)
    (failed : Parser.terms stop owner tokens = .error error) :
    error.LiesIn stop (opener :: tokens) := by
  have inside : tokens <:+ opener :: tokens := List.suffix_cons opener tokens
  rcases terms_eq_error.1 failed with failed | ⟨first, rest, reads, more⟩
  · exact (below.chain_step short failed).suffix inside
  · have firstShort := reads.short
    have behind := suffix_of_reads_chain reads
    rcases more with ⟨-, rfl⟩ | ⟨t, comma, tail, -, rfl, separates, failed⟩
    · cases tokens with
      | nil => exact absurd firstShort (Nat.not_lt_zero _)
      | cons token tail =>
          exact ⟨opener, token, List.infix_append [] [opener, token] tail, opens, rfl⟩
    · have within := below.terms (by simp at firstShort; omega) (Or.inr separates) failed
      exact within.suffix (behind.trans inside)

end LocatedBelow

theorem locatedBelow (stop bound : Nat) : LocatedBelow stop bound := by
  induction bound with
  | zero =>
      constructor
      · intro _ _ short
        exact absurd short (Nat.not_lt_zero _)
      · intro _ _ _ short
        exact absurd short (Nat.not_lt_zero _)
      · intro _ _ _ _ short
        exact absurd short (Nat.not_lt_zero _)
  | succ bound below =>
      exact
        { primary := fun short => below.primary_step (Nat.le_of_lt_succ short)
          chain := fun short => below.chain_step (Nat.le_of_lt_succ short)
          terms := fun short => below.terms_step (Nat.le_of_lt_succ short) }

end Parser

/-- Tokens that spell no formula are refused with an error about them. -/
theorem Formula.liesIn_of_ofTokens (failed : Formula.ofTokens stop tokens = .error error) :
    error.LiesIn stop tokens := by
  obtain ⟨-, failed | ⟨f, rest, reads, -, rfl⟩⟩ := Formula.ofTokens_eq_error.1 failed
  · exact (locatedBelow stop _).chain (Nat.lt_succ_self _) failed
  · exact TokenClass.foundAt_next (suffix_of_reads_chain reads)

/-!
### Errors about a text
-/

/-- A character at which no token can start stands where it is reported. -/
theorem Token.illegal_of_scanFrom {position : Nat} {text : List Char} {illegal : IllegalCharacter}
    (failed : Token.scanFrom position text = .error illegal) :
    ∃ before after, text = before ++ illegal.character :: after ∧
      illegal.position = position + before.length := by
  fun_induction Token.scanFrom position text with
  | case1 position => cases failed
  | case2 position c rest blank ih =>
      obtain ⟨before, after, rfl, here⟩ := ih failed
      exact ⟨c :: before, after, rfl, by rw [here, List.length_cons]; omega⟩
  | case3 position c rest notBlank refused =>
      cases failed
      exact ⟨[], rest, rfl, rfl⟩
  | case4 position c rest notBlank l more read stop =>
      rename_i ih
      cases scannedRest : Token.scanFrom stop (rest.drop more) with
      | ok others =>
          rw [scannedRest] at failed
          cases failed
      | error further =>
          rw [scannedRest] at failed
          cases failed
          obtain ⟨before, after, split, here⟩ := ih scannedRest
          have short := Lexeme.read?_le read
          refine ⟨c :: rest.take more ++ before, after, ?_, ?_⟩
          · rw [List.cons_append, List.cons_append, List.append_assoc, ← split,
              List.take_append_drop]
          · rw [here, List.length_append, List.length_cons, List.length_take_of_le short]
            omega

namespace ParseError

/-- The class of tokens that was found where another was needed, if that is what an error says. -/
def found? : ParseError → Option TokenClass
  | .expected _ found _ => some found
  | .unexpected found _ => some found
  | .missingVariable found _ => some found
  | _ => none

/-- The text has a place that the error is about, and its reason can be seen there: the character
that it names, or a token, or the end of the text if that is what was found. -/
def LocatedIn (text : String) : ParseError → Prop
  | .illegalCharacter c position => text.toList[position]? = some c
  | error => ∃ tokens, Token.scan text = .ok tokens ∧ error.LiesIn text.length tokens ∧
      (error.position = text.length ↔ error.found? = some .endOfText)

/-- Only what is found at the end of the text is found there: tokens start before it. -/
theorem LiesIn.position_eq_iff (lies : error.LiesIn stop tokens)
    (inFront : ∀ token ∈ tokens, token.start < stop) :
    error.position = stop ↔ error.found? = some .endOfText := by
  have found {c : TokenClass} {position : Nat} (here : c.FoundAt stop tokens position) :
      position = stop ↔ some c = some .endOfText := by
    rcases here with ⟨rfl, rfl⟩ | ⟨token, member, rfl, rfl⟩
    · exact iff_of_true rfl rfl
    · exact iff_of_false (Nat.ne_of_lt (inFront token member))
        fun same => token.lexeme.tokenClass_ne_endOfText (Option.some.inj same)
  cases error with
  | illegalCharacter c position => exact absurd lies id
  | expected wanted c position => exact found lies
  | unexpected c position => exact found lies
  | missingVariable c position => exact found lies
  | invalidArgument owner got position =>
      obtain ⟨opener, token, pair, -, rfl⟩ := lies
      exact iff_of_false (Nat.ne_of_lt (inFront token (pair.subset (by simp)))) nofun
  | emptyArguments position =>
      obtain ⟨head, name, opening, close, group, -, -, -, rfl⟩ := lies
      exact iff_of_false (Nat.ne_of_lt (inFront head (group.subset (by simp)))) nofun

end ParseError

/-- Where the parser fails, its error is about a place of the text. -/
theorem Formula.locatedIn_of_parse {text : String} (failed : Formula.parse text = .error error) :
    error.LocatedIn text := by
  unfold Formula.parse at failed
  cases scanned : Token.scan text with
  | error illegal =>
      rw [scanned] at failed
      cases failed
      obtain ⟨before, after, split, here⟩ := Token.illegal_of_scanFrom scanned
      simp [ParseError.LocatedIn, split, here]
  | ok tokens =>
      rw [scanned] at failed
      have lies := Formula.liesIn_of_ofTokens failed
      have inFront := (Token.scanFrom_eq_ok_iff.1 scanned).start_lt_length
      have ends := lies.position_eq_iff inFront
      cases error with
      | illegalCharacter c position => exact absurd lies id
      | _ => exact ⟨tokens, scanned, lies, ends⟩

/-- Reading a text gives a formula, or an error of the scanner or of a reader that is about a place
of the text. -/
theorem Source.parse_text_located (text : String) :
    (∃ f, (Source.text text).parse = .ok f) ∨
      ∃ error, (Source.text text).parse = .error (.malformed error) ∧ error.LocatedIn text := by
  cases outcome : Formula.parse text with
  | ok f => exact Or.inl ⟨f, by simp [parse, outcome, Except.mapError]⟩
  | error error =>
      have located := Formula.locatedIn_of_parse outcome
      exact Or.inr ⟨error, by simp [parse, outcome, Except.mapError], located⟩

end PredicateLogic
