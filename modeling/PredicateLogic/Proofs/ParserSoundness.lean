/-
Module: PredicateLogic.Proofs.ParserSoundness
Purpose: What the readers of the parser read is spelled by the tokens they use.
  A reader that is given a power stands for one of three phrases (`Phrase.above`).  Each reader is
  looked at once, with the statement about shorter lists of tokens at hand.
Main exports: Phrase.above, Spells.loosen, Spells.join, Spells.spanTo_eq, Parser.SoundBelow,
  Parser.soundBelow, Parser.suffix_of_reads_primary, Parser.suffix_of_reads_chain,
  Parser.suffix_of_reads_terms
-/
import PredicateLogic.Proofs.Grammar
import PredicateLogic.Proofs.Reading

namespace PredicateLogic

open PredicateLogic.Parser

/-!
### Powers and phrases

An implication can stand only in a formula, a conjunction or a disjunction also in a chain, and no
connective in a primary formula.  Reading with a power leaves out the connectives that bind no
tighter.
-/

/-- The phrase that is read with a power. -/
def Phrase.above (power : Nat) (f : Formula) : Phrase :=
  if power < Connective.bindingPower .implication then .formula f
  else if power < Connective.bindingPower .conjunction then .chain f
  else .primary f

namespace Phrase

variable {power : Nat} {f : Formula}

theorem above_low (low : power < 40) : above power f = .formula f :=
  if_pos low

theorem above_middle (lower : 40 ≤ power) (upper : power < 50) : above power f = .chain f :=
  (if_neg (Nat.not_lt.2 lower)).trans (if_pos upper)

theorem above_high (high : 50 ≤ power) : above power f = .primary f :=
  (if_neg (Nat.not_lt.2 (Nat.le_trans (by decide) high))).trans (if_neg (Nat.not_lt.2 high))

end Phrase

namespace Spells

variable {tokens : List Token} {f : Formula} {power level : Nat}

/-- A phrase that was read with a high power can stand where a lower one is asked for. -/
theorem loosen (spelled : Spells tokens (Phrase.above level f)) (lower : power ≤ level) :
    Spells tokens (Phrase.above power f) := by
  rcases Nat.lt_or_ge level 40 with low | notLow
  · rw [Phrase.above_low low] at spelled
    rw [Phrase.above_low (Nat.lt_of_le_of_lt lower low)]
    exact spelled
  · have whole : Spells tokens (.chain f) := by
      rcases Nat.lt_or_ge level 50 with middle | high
      · rw [Phrase.above_middle notLow middle] at spelled
        exact spelled
      · rw [Phrase.above_high high] at spelled
        exact ofPrimary spelled
    rcases Nat.lt_or_ge power 40 with low | notLow'
    · rw [Phrase.above_low low]
      exact ofChain whole
    · rcases Nat.lt_or_ge power 50 with middle | high
      · rw [Phrase.above_middle notLow' middle]
        exact whole
      · rw [Phrase.above_high (Nat.le_trans high lower)] at spelled
        rw [Phrase.above_high high]
        exact spelled

/-- Two phrases joined by a connective: the left one was read with at least the power of the
connective, and the right one with the power just below it. -/
theorem join {left right : List Token} {sign : Token} {c : Connective} {g : Formula}
    (first : Spells left (Phrase.above level f)) (high : c.bindingPower ≤ level)
    (joins : sign.lexeme = .connective c)
    (second : Spells right (Phrase.above (c.bindingPower - 1) g)) :
    Spells (left ++ sign :: right) (Phrase.above (c.bindingPower - 1)
      (.binary c f g { start := f.span.start, stop := g.span.stop })) := by
  have bounded := first.loosen high
  have ranges : ({ start := f.span.start, stop := g.span.stop } : Span) =
      Token.range (left ++ sign :: right) := by
    rw [range_append sign first.ne_nil second.ne_nil]
    cases c <;> rw [bounded.span_eq, second.span_eq]
  rw [ranges]
  cases c with
  | implication => exact implies bounded joins second
  | conjunction => exact joined bounded joins (by decide) second
  | disjunction => exact joined bounded joins (by decide) second

/-- The range from a token in front of a phrase to the end of the phrase. -/
theorem spanTo_eq (sign : Token) (between : List Token) (spelled : Spells tokens (.primary f)) :
    spanTo sign f = Token.range (sign :: between ++ tokens) := by
  have nonempty := spelled.ne_nil
  rw [List.cons_append, range_cons sign (by simp [nonempty]), spanTo, spelled.span_eq]
  cases tokens with
  | nil => exact absurd rfl nonempty
  | cons next rest => simp [Token.range, List.getLast?_append, List.getLast?_cons]

end Spells

/-!
### What is read is spelled

The readers call each other on fewer and fewer tokens, so the statement about all of them is for
lists of tokens below a bound, and each reader is looked at once, with the statement for shorter
lists at hand.
-/

namespace Parser

/-- From fewer than `bound` tokens, every reader reads what the tokens that it uses spell. -/
structure SoundBelow (stop bound : Nat) : Prop where
  primary {tokens rest : List Token} {f : Formula} :
    tokens.length < bound → Reads (primary stop tokens) f rest →
      ∃ used, tokens = used ++ rest ∧ Spells used (.primary f)
  chain {tokens rest : List Token} {f : Formula} {power : Nat} :
    tokens.length < bound → Reads (chain stop power tokens) f rest →
      ∃ used, tokens = used ++ rest ∧ Spells used (Phrase.above power f) ∧
        (nextClass rest).bindingPower ≤ power
  terms {tokens rest : List Token} {args : List Term} {owner : ArgumentOwner} :
    tokens.length < bound → Reads (terms stop owner tokens) args rest →
      ∃ used, tokens = used ++ rest ∧ Spells used (.arguments args)

variable {stop bound power level : Nat} {tokens rest : List Token} {f left : Formula}

/-- No connective binds tighter than a conjunction. -/
theorem bindingPower_nextClass_le (tokens : List Token) : (nextClass tokens).bindingPower ≤ 50 := by
  cases tokens with
  | nil => exact Nat.zero_le 50
  | cons token tail =>
      change token.lexeme.tokenClass.bindingPower ≤ 50
      cases token.lexeme with
      | connective c => cases c <;> decide
      | _ => exact Nat.zero_le 50

namespace SoundBelow

/-- A name with arguments is read from the tokens that spell the arguments, in parentheses. -/
theorem arguments {owner : ArgumentOwner} {head opening close : Token} {tail : List Token}
    {args : List Term} (below : SoundBelow stop bound) (short : tail.length < bound)
    (reads : Reads (Parser.terms stop owner tail) args (close :: rest)) :
    ∃ inner, head :: opening :: tail = (head :: opening :: inner ++ [close]) ++ rest ∧
      Spells inner (.arguments args) ∧
      Span.between head.start close.stop = Token.range (head :: opening :: inner ++ [close]) := by
  obtain ⟨inner, rfl, spelled⟩ := below.terms short reads
  exact ⟨inner, by simp, spelled, (Spells.range_enclosed head close (opening :: inner)).symm⟩

/-- What is read from a predicate symbol on, with or without parentheses. -/
theorem predicate_step {token : Token} {tail : List Token} {name : String}
    (below : SoundBelow stop bound) (shorter : tail.length < bound)
    (named : token.lexeme = .predicate name)
    (reads : Reads (Parser.primary stop (token :: tail)) f rest) :
    ∃ used, token :: tail = used ++ rest ∧ Spells used (.primary f) := by
  by_cases opened : nextClass tail = .leftParen
  · obtain ⟨opening, inside, rfl, opens⟩ := exists_of_nextClass (l := .leftParen) rfl opened
    by_cases closed : nextClass inside = .rightParen
    · obtain ⟨close, after, rfl, closes⟩ := exists_of_nextClass (l := .rightParen) rfl closed
      obtain ⟨rfl, rfl⟩ := (reads_primary_predicate_empty named opens closes).1 reads
      exact ⟨[token, opening, close], rfl, .emptyArguments named opens closes⟩
    · obtain ⟨args, close, argsRead, closes, rfl⟩ :=
        (reads_primary_predicate_arguments named opens closed).1 reads
      obtain ⟨inner, split, spelled, span⟩ :=
        below.arguments (Nat.lt_trans (Nat.lt_succ_self _) shorter) argsRead
      rw [split, span]
      exact ⟨_, rfl, .predicate named opens spelled closes⟩
  · obtain ⟨rfl, rfl⟩ := (reads_primary_predicate_alone named opened).1 reads
    exact ⟨[token], rfl, .proposition named⟩

/-- What is read from a function symbol on: the parentheses have to be there, and not empty. -/
theorem function_step {token : Token} {tail : List Token} {name : String}
    (below : SoundBelow stop bound) (shorter : tail.length < bound)
    (named : token.lexeme = .function name)
    (reads : Reads (Parser.primary stop (token :: tail)) f rest) :
    ∃ used, token :: tail = used ++ rest ∧ Spells used (.primary f) := by
  by_cases opened : nextClass tail = .leftParen
  · obtain ⟨opening, inside, rfl, opens⟩ := exists_of_nextClass (l := .leftParen) rfl opened
    by_cases closed : nextClass inside = .rightParen
    · obtain ⟨close, after, rfl, closes⟩ := exists_of_nextClass (l := .rightParen) rfl closed
      exact absurd reads (not_reads_primary_function_empty named opens closes)
    · obtain ⟨args, close, argsRead, closes, rfl⟩ :=
        (reads_primary_function_arguments named opens closed).1 reads
      obtain ⟨inner, split, spelled, span⟩ :=
        below.arguments (Nat.lt_trans (Nat.lt_succ_self _) shorter) argsRead
      rw [split, span]
      exact ⟨_, rfl, .ofTerm (.app named opens spelled closes)⟩
  · exact absurd reads (not_reads_primary_function_alone named opened)

/-- A primary formula, by the lexeme that it starts with. -/
theorem primary_step (below : SoundBelow stop bound) (short : tokens.length ≤ bound)
    (reads : Reads (Parser.primary stop tokens) f rest) :
    ∃ used, tokens = used ++ rest ∧ Spells used (.primary f) := by
  cases tokens with
  | nil => exact absurd reads not_reads_primary_nil
  | cons token tail =>
      have shorter : tail.length < bound := short
      cases named : token.lexeme with
      | var name =>
          obtain ⟨rfl, rfl⟩ := (reads_primary_var named).1 reads
          exact ⟨[token], rfl, .ofTerm (.var named)⟩
      | literal value =>
          obtain ⟨rfl, rfl⟩ := (reads_primary_literal named).1 reads
          exact ⟨[token], rfl, .literal named⟩
      | predicate name => exact below.predicate_step shorter named reads
      | function name => exact below.function_step shorter named reads
      | negation =>
          obtain ⟨argument, argumentRead, rfl⟩ := (reads_primary_negation named).1 reads
          obtain ⟨used, rfl, spelled, -⟩ := below.chain shorter argumentRead
          rw [Phrase.above_high (by decide)] at spelled
          rw [spelled.spanTo_eq token []]
          exact ⟨token :: used, rfl, .neg named spelled⟩
      | leftParen =>
          obtain ⟨body, close, bodyRead, closes, rfl⟩ := (reads_primary_leftParen named).1 reads
          obtain ⟨used, rfl, spelled, -⟩ := below.chain shorter bodyRead
          rw [Phrase.above_low (by decide)] at spelled
          rw [← Spells.range_enclosed]
          exact ⟨token :: used ++ [close], by simp, .group named spelled closes⟩
      | quantifier q =>
          by_cases followed : nextClass tail = .var
          · obtain ⟨variableToken, name, after, rfl, isVariable⟩ := exists_var_of_nextClass followed
            obtain ⟨body, bodyRead, rfl⟩ := (reads_primary_quantifier named isVariable).1 reads
            obtain ⟨used, rfl, spelled⟩ :=
              below.primary (Nat.lt_trans (Nat.lt_succ_self _) shorter) bodyRead
            rw [spelled.spanTo_eq token [variableToken]]
            exact ⟨token :: variableToken :: used, rfl, .quantified named isVariable spelled⟩
          · exact absurd reads (not_reads_primary_quantifier named followed)
      | connective c | rightParen | comma =>
          exact absurd reads (not_reads_primary (by rw [named]; rfl))

/-- The loop over connectives, from a formula that was read with a power no lower than its own and
ends where no connective goes on that is tighter than that. -/
theorem chainFrom_step (below : SoundBelow stop bound) {before : List Token}
    (short : tokens.length ≤ bound) (spelled : Spells before (Phrase.above level left))
    (lower : power ≤ level) (ends : (nextClass tokens).bindingPower ≤ level)
    (reads : Reads (Parser.chainFrom stop power left tokens) f rest) :
    ∃ used, before ++ tokens = used ++ rest ∧ Spells used (Phrase.above power f) ∧
      (nextClass rest).bindingPower ≤ power := by
  induction size : tokens.length using Nat.strongRecOn
    generalizing tokens before left level with
  | ind size ih =>
      rcases Nat.lt_or_ge power (nextClass tokens).bindingPower with tighter | loose
      · obtain ⟨sign, tail, c, rfl, joins⟩ := exists_connective_of_bindingPower tighter
        have power_eq : (nextClass (sign :: tail)).bindingPower = c.bindingPower := by
          simp [nextClass, joins, Lexeme.tokenClass, TokenClass.bindingPower]
        rw [power_eq] at tighter ends
        obtain ⟨right, between, rightRead, more⟩ :=
          (reads_chainFrom_connective joins tighter).1 reads
        have rightShort := rightRead.short
        obtain ⟨used, rfl, rightSpelled, rightEnds⟩ := below.chain short rightRead
        obtain ⟨used', split, whole⟩ := ih between.length (by simp at size; omega)
          (by simp at short; omega) (spelled.join ends joins rightSpelled)
          (Nat.le_sub_one_of_lt tighter) rightEnds more rfl
        exact ⟨used', by simpa using split, whole⟩
      · obtain ⟨rfl, rfl⟩ := (reads_chainFrom_stop loose).1 reads
        exact ⟨before, rfl, spelled.loosen lower, loose⟩

/-- A chain starts with a primary formula, which counts as read with any power. -/
theorem chain_step (below : SoundBelow stop bound) (short : tokens.length ≤ bound)
    (reads : Reads (Parser.chain stop power tokens) f rest) :
    ∃ used, tokens = used ++ rest ∧ Spells used (Phrase.above power f) ∧
      (nextClass rest).bindingPower ≤ power := by
  obtain ⟨first, left, firstRead, more⟩ := reads_chain.1 reads
  have firstShort := firstRead.short
  obtain ⟨used, rfl, spelled⟩ := below.primary_step short firstRead
  rw [← Phrase.above_high (Nat.le_max_right power 50)] at spelled
  exact below.chainFrom_step (Nat.le_of_lt (Nat.lt_of_lt_of_le firstShort short)) spelled
    (Nat.le_max_left power 50)
    (Nat.le_trans (bindingPower_nextClass_le left) (Nat.le_max_right power 50)) more

/-- Arguments are read as formulas, and only terms are let through. -/
theorem terms_step {args : List Term} {owner : ArgumentOwner} (below : SoundBelow stop bound)
    (short : tokens.length ≤ bound) (reads : Reads (Parser.terms stop owner tokens) args rest) :
    ∃ used, tokens = used ++ rest ∧ Spells used (.arguments args) := by
  obtain ⟨t, left, firstRead, more⟩ := reads_terms.1 reads
  have firstShort := firstRead.short
  obtain ⟨used, rfl, spelled, -⟩ := below.chain_step short firstRead
  rw [Phrase.above_low (by decide)] at spelled
  rcases more with ⟨-, rfl, rfl⟩ | ⟨comma, tail, others, rfl, separates, othersRead, rfl⟩
  · exact ⟨used, rfl, .argument spelled.term_of_formula⟩
  · obtain ⟨used', rfl, spelled'⟩ :=
      below.terms (by simp at firstShort short ⊢; omega) othersRead
    exact ⟨used ++ comma :: used', by simp,
      .moreArguments spelled.term_of_formula separates spelled'⟩

end SoundBelow

/-- Every reader reads what the tokens that it uses spell. -/
theorem soundBelow (stop bound : Nat) : SoundBelow stop bound := by
  induction bound with
  | zero =>
      constructor
      · intro _ _ _ short
        exact absurd short (Nat.not_lt_zero _)
      · intro _ _ _ _ short
        exact absurd short (Nat.not_lt_zero _)
      · intro _ _ _ _ short
        exact absurd short (Nat.not_lt_zero _)
  | succ bound below =>
      exact
        { primary := fun short => below.primary_step (Nat.le_of_lt_succ short)
          chain := fun short => below.chain_step (Nat.le_of_lt_succ short)
          terms := fun short => below.terms_step (Nat.le_of_lt_succ short) }

/-!
### What is left is the end of the tokens
-/

theorem suffix_of_reads_chain (reads : Reads (chain stop power tokens) f rest) :
    rest <:+ tokens := by
  obtain ⟨used, rfl, -⟩ := (soundBelow stop _).chain (Nat.lt_succ_self _) reads
  exact List.suffix_append used rest

theorem suffix_of_reads_terms {args : List Term} {owner : ArgumentOwner}
    (reads : Reads (terms stop owner tokens) args rest) : rest <:+ tokens := by
  obtain ⟨used, rfl, -⟩ := (soundBelow stop _).terms (Nat.lt_succ_self _) reads
  exact List.suffix_append used rest

theorem suffix_of_reads_primary (reads : Reads (primary stop tokens) f rest) :
    rest <:+ tokens := by
  obtain ⟨used, rfl, -⟩ := (soundBelow stop _).primary (Nat.lt_succ_self _) reads
  exact List.suffix_append used rest

end Parser

end PredicateLogic
