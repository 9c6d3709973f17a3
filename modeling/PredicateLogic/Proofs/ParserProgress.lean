/-
Module: PredicateLogic.Proofs.ParserProgress
Purpose: The readers of the parser always move on, and so the parser comes to an end.
  Readers that move a cursor, and whose calls may be stacked to a given depth only, do what those of
  the parser do: each call of one layer does if the calls below it do (`Readers.Agree.layer`).  A
  reader consumes a token before it calls another one on the same tokens again, so the number of
  tokens left bounds the depth that is needed.
Main exports: Cursor.Readers.Agree, Cursor.agree_within, Cursor.MovesOn,
  Parser.chain_negationPower, Cursor.parseWithin_eq_some, Cursor.readers_advance
-/
import PredicateLogic.Proofs.ParserGrammar
import PredicateLogic.Proofs.TokenCursor

namespace PredicateLogic.Cursor

open PredicateLogic.Parser

/-- Readers whose calls may be stacked to a depth agree with those of the parser. -/
structure Readers.Agree (stop : Nat) (tokens : List Token) (depth : Nat) (readers : Readers) :
    Prop where
  primary {position : Nat} {left : List Token} : At tokens position left →
    Agrees tokens (4 * left.length < depth) readers.primary position (Parser.primary stop left)
  chain {position power : Nat} {left : List Token} : At tokens position left →
    Agrees tokens (4 * left.length + 1 < depth) (readers.chain power) position
      (Parser.chain stop power left)
  chainFrom {position power : Nat} {before : Formula} {left : List Token} :
    At tokens position left →
    Agrees tokens (4 * left.length < depth) (readers.chainFrom power before) position
      (Parser.chainFrom stop power before left)
  terms {position : Nat} {owner : ArgumentOwner} {left : List Token} : At tokens position left →
    Agrees tokens (4 * left.length + 2 < depth) (readers.terms owner) position
      (Parser.terms stop owner left)

namespace Readers.Agree

variable {stop depth position power : Nat} {tokens left tail : List Token} {token : Token}
  {below : Readers} {name : String} {before : Formula}

/-- Behind a predicate symbol, with or without parentheses. -/
theorem behindPredicate (agree : below.Agree stop tokens depth)
    (place : At tokens position (token :: tail)) (named : token.lexeme = .predicate name) :
    Agrees tokens (4 * (tail.length + 1) < depth + 1)
      (below.behindPredicate stop tokens token name) (position + 1)
      (Parser.primary stop (token :: tail)) := by
  unfold Readers.behindPredicate
  apply agrees_ahead place.next
  by_cases opened : nextClass tail = .leftParen
  · obtain ⟨opening, inside, rfl, opens⟩ := exists_of_nextClass (l := .leftParen) rfl opened
    have inner := place.next.next
    rw [if_pos opened]
    apply agrees_advance place.next
    unfold optionalTerms
    rw [bind_assoc]
    apply agrees_ahead inner
    by_cases closed : nextClass inside = .rightParen
    · obtain ⟨close, after, rfl, closes⟩ := exists_of_nextClass (l := .rightParen) rfl closed
      rw [if_pos closed, pure_bind]
      apply agrees_expectClosing inner
      · intro error unclosed
        exact absurd closed (closing_eq_error.1 unclosed).1
      · rintro _ _ ⟨⟩ - behind
        exact agrees_return behind
          ((reads_primary_predicate_empty named opens closes).2 ⟨rfl, rfl⟩)
    · rw [if_neg closed]
      apply (agree.terms inner).enclosed
      · simp only [List.length_cons]
        omega
      · intro error
        exact (primary_predicate_arguments_eq_error named opens closed).2
      · intro args close rest argsRead closes
        exact (reads_primary_predicate_arguments named opens closed).2
          ⟨args, close, argsRead, closes, rfl⟩
  · rw [if_neg opened]
    exact agrees_return place.next ((reads_primary_predicate_alone named opened).2 ⟨rfl, rfl⟩)

/-- Behind a function symbol, the parentheses have to be there, and not empty. -/
theorem behindFunction (agree : below.Agree stop tokens depth)
    (place : At tokens position (token :: tail)) (named : token.lexeme = .function name) :
    Agrees tokens (4 * (tail.length + 1) < depth + 1)
      (below.behindFunction stop tokens token name) (position + 1)
      (Parser.primary stop (token :: tail)) := by
  unfold Readers.behindFunction
  apply agrees_expect (l := .leftParen) rfl place.next
  · intro unopened
    exact (primary_function_alone_eq_error named unopened).2 rfl
  · rintro opening inside rfl opens inner
    apply agrees_ahead inner
    by_cases closed : nextClass inside = .rightParen
    · obtain ⟨close, after, rfl, closes⟩ := exists_of_nextClass (l := .rightParen) rfl closed
      rw [if_pos closed]
      exact agrees_throw ((primary_function_empty_eq_error named opens closes).2 rfl)
    · rw [if_neg closed]
      apply (agree.terms inner).enclosed
      · simp only [List.length_cons]
        omega
      · intro error
        exact (primary_function_arguments_eq_error named opens closed).2
      · intro args close rest argsRead closes
        exact (reads_primary_function_arguments named opens closed).2
          ⟨args, close, argsRead, closes, rfl⟩

theorem behindNegation (agree : below.Agree stop tokens depth)
    (place : At tokens position (token :: tail)) (negates : token.lexeme = .negation) :
    Agrees tokens (4 * (tail.length + 1) < depth + 1) (below.behindNegation token)
      (position + 1) (Parser.primary stop (token :: tail)) := by
  apply (agree.chain place.next).andThen (by omega)
  · intro error failed
    exact (primary_negation_eq_error negates).2 failed
  · intro argument place' left reads here
    exact agrees_return here ((reads_primary_negation negates).2 ⟨argument, reads, rfl⟩)

theorem behindLeftParen (agree : below.Agree stop tokens depth)
    (place : At tokens position (token :: tail)) (opens : token.lexeme = .leftParen) :
    Agrees tokens (4 * (tail.length + 1) < depth + 1)
      (below.behindLeftParen stop tokens token) (position + 1)
      (Parser.primary stop (token :: tail)) := by
  apply (agree.chain place.next).enclosed (by omega)
  · intro error
    exact (primary_leftParen_eq_error opens).2
  · intro body close rest bodyRead closes
    exact (reads_primary_leftParen opens).2 ⟨body, close, bodyRead, closes, rfl⟩

/-- Behind a quantifier, a variable has to follow. -/
theorem behindQuantifier {q : Quantifier} (agree : below.Agree stop tokens depth)
    (place : At tokens position (token :: tail)) (quantifies : token.lexeme = .quantifier q) :
    Agrees tokens (4 * (tail.length + 1) < depth + 1)
      (below.behindQuantifier stop tokens token q) (position + 1)
      (Parser.primary stop (token :: tail)) := by
  unfold Readers.behindQuantifier
  apply agrees_ahead place.next
  by_cases followed : nextClass tail = .var
  · obtain ⟨⟨_, first, last⟩, name, after, rfl, rfl⟩ := exists_var_of_nextClass followed
    apply agrees_advance place.next
    apply (agree.primary place.next.next).andThen
    · simp only [List.length_cons]
      omega
    · intro error failed
      exact (primary_quantifier_eq_error quantifies rfl).2 failed
    · intro body place' left bodyRead here
      exact agrees_return here ((reads_primary_quantifier quantifies rfl).2 ⟨body, bodyRead, rfl⟩)
  · split
    case h_1 => exact absurd rfl followed
    case h_2 =>
      exact agrees_throw ((primary_quantifier_alone_eq_error quantifies followed).2 rfl)

/-- One call of the reader of primary formulas, by the lexeme of the next token. -/
theorem primaryLayer (agree : below.Agree stop tokens depth) (place : At tokens position left) :
    Agrees tokens (4 * left.length < depth + 1) (below.primaryLayer stop tokens) position
      (Parser.primary stop left) := by
  unfold Readers.primaryLayer
  apply agrees_ahead place
  cases left with
  | nil =>
      apply agrees_advance_end place
      exact agrees_throw ((primary_eq_error rfl).2 rfl)
  | cons token tail =>
      apply agrees_advance place
      simp only [Readers.behind]
      cases named : token.lexeme with
      | var name =>
          exact agrees_return place.next ((reads_primary_var named).2 ⟨rfl, rfl⟩)
      | literal value =>
          exact agrees_return place.next ((reads_primary_literal named).2 ⟨rfl, rfl⟩)
      | predicate name => exact agree.behindPredicate place named
      | function name => exact agree.behindFunction place named
      | negation => exact agree.behindNegation place named
      | leftParen => exact agree.behindLeftParen place named
      | quantifier q => exact agree.behindQuantifier place named
      | connective c | rightParen | comma =>
          apply agrees_throw
          rw [primary_eq_error (by rw [nextClass, named]; rfl), nextClass, named, nextStart]

theorem chainLayer (agree : below.Agree stop tokens depth) (place : At tokens position left) :
    Agrees tokens (4 * left.length + 1 < depth + 1) (below.chainLayer power) position
      (Parser.chain stop power left) := by
  apply (agree.primary place).andThen
  · omega
  · intro error failed
    exact chain_eq_error.2 (Or.inl failed)
  · intro first place' between firstRead here
    have firstShort := firstRead.short
    apply (agree.chainFrom here).last
    · omega
    · intro error failed
      exact chain_eq_error.2 (Or.inr ⟨first, between, firstRead, failed⟩)
    · intro f left reads
      exact reads_chain.2 ⟨first, between, firstRead, reads⟩

/-- One round of the loop over connectives. -/
theorem chainFromLayer (agree : below.Agree stop tokens depth) (place : At tokens position left) :
    Agrees tokens (4 * left.length < depth + 1) (below.chainFromLayer tokens power before) position
      (Parser.chainFrom stop power before left) := by
  unfold Readers.chainFromLayer
  apply agrees_ahead place
  rcases Nat.lt_or_ge power (nextClass left).bindingPower with tighter | loose
  · obtain ⟨⟨_, start, last⟩, tail, c, rfl, rfl⟩ := exists_connective_of_bindingPower tighter
    have tighter : power < c.bindingPower := tighter
    simp only [if_pos tighter]
    apply agrees_advance place
    apply (agree.chain place.next).andThen
    · simp only [List.length_cons]
      omega
    · intro error failed
      exact (chainFrom_connective_eq_error rfl tighter).2 (Or.inl failed)
    · intro right place' between rightRead here
      have rightShort := rightRead.short
      apply (agree.chainFrom here).last
      · simp only [List.length_cons]
        omega
      · intro error failed
        exact (chainFrom_connective_eq_error rfl tighter).2
          (Or.inr ⟨right, between, rightRead, failed⟩)
      · intro f left reads
        exact (reads_chainFrom_connective rfl tighter).2 ⟨right, between, rightRead, reads⟩
  · have stopped : Reads (Parser.chainFrom stop power before left) before left :=
      (reads_chainFrom_stop loose).2 ⟨rfl, rfl⟩
    split
    case h_1 c _ _ tail =>
      have loose : ¬ power < c.bindingPower := Nat.not_lt.2 loose
      rw [if_neg loose]
      exact agrees_return place stopped
    case h_2 => exact agrees_return place stopped

/-- One round of the loop over arguments. -/
theorem termsLayer {owner : ArgumentOwner} (agree : below.Agree stop tokens depth)
    (place : At tokens position left) :
    Agrees tokens (4 * left.length + 2 < depth + 1) (below.termsLayer stop tokens owner) position
      (Parser.terms stop owner left) := by
  unfold Readers.termsLayer
  apply agrees_ahead place
  apply (agree.chain place).andThen
  · omega
  · intro error failed
    exact terms_eq_error.2 (Or.inl failed)
  · intro first place' behind firstRead here
    have firstShort := firstRead.short
    split
    case h_1 t =>
      apply agrees_ahead here
      by_cases separated : nextClass behind = .comma
      · obtain ⟨comma, tail, rfl, separates⟩ := exists_of_nextClass (l := .comma) rfl separated
        rw [if_pos separated]
        apply agrees_advance here
        apply (agree.terms here.next).andThen
        · simp only [List.length_cons] at firstShort
          omega
        · intro error failed
          exact terms_eq_error.2
            (Or.inr ⟨_, _, firstRead, Or.inr ⟨t, comma, tail, rfl, rfl, separates, failed⟩⟩)
        · intro others place left othersRead here
          exact agrees_return here (reads_terms.2
            ⟨t, _, firstRead, Or.inr ⟨comma, tail, others, rfl, separates, othersRead, rfl⟩⟩)
      · rw [if_neg separated]
        exact agrees_return here
          (reads_terms.2 ⟨t, behind, firstRead, Or.inl ⟨separated, rfl, rfl⟩⟩)
    case h_2 noTerm =>
      exact agrees_throw (terms_eq_error.2 (Or.inr ⟨first, behind, firstRead,
        Or.inl ⟨noTerm, rfl⟩⟩))

/-- If the calls below agree, so do the calls of one layer. -/
theorem layer (agree : below.Agree stop tokens depth) :
    (below.layer stop tokens).Agree stop tokens (depth + 1) where
  primary := agree.primaryLayer
  chain := agree.chainLayer
  chainFrom := agree.chainFromLayer
  terms := agree.termsLayer

end Readers.Agree

/-- However deep the calls may be stacked, the readers agree with those of the parser. -/
theorem agree_within (stop : Nat) (tokens : List Token) (depth : Nat) :
    (Readers.within stop tokens depth).Agree stop tokens depth := by
  induction depth with
  | zero =>
      constructor
      · intro position left place
        exact agrees_stuck (Nat.not_lt_zero _)
      · intro position power left place
        exact agrees_stuck (Nat.not_lt_zero _)
      · intro position power before left place
        exact agrees_stuck (Nat.not_lt_zero _)
      · intro position owner left place
        exact agrees_stuck (Nat.not_lt_zero _)
  | succ depth below => exact below.layer

/-!
### Whole lists of tokens
-/

/-- What the parser makes of all tokens, as a reader that leaves none of them. -/
def readWhole (stop : Nat) (tokens : List Token) : Except ParseError (Parsed 1 Formula) :=
  (Formula.ofTokens stop tokens).map fun f => { value := f, rest := [], short := Nat.zero_lt_one }

theorem readWhole_eq_error {stop : Nat} {tokens : List Token} {error : ParseError} :
    readWhole stop tokens = .error error ↔ Formula.ofTokens stop tokens = .error error := by
  unfold readWhole
  cases Formula.ofTokens stop tokens <;> simp [Except.map]

theorem reads_readWhole {stop : Nat} {tokens left : List Token} {f : Formula} :
    Reads (readWhole stop tokens) f left ↔ Formula.ofTokens stop tokens = .ok f ∧ left = [] := by
  unfold readWhole
  cases Formula.ofTokens stop tokens with
  | error error => simp [Except.map, not_reads_error]
  | ok g => simp [Except.map, reads_ok, eq_comm]

/-- Reading all tokens agrees with the parser. -/
theorem Readers.Agree.whole {stop depth : Nat} {tokens : List Token} {readers : Readers}
    (agree : readers.Agree stop tokens depth) :
    Agrees tokens (4 * tokens.length + 1 < depth) (readers.whole tokens) 0
      (readWhole stop tokens) := by
  have start : At tokens 0 tokens := at_drop (Nat.zero_le _)
  unfold Readers.whole
  apply agrees_ahead start
  cases tokens with
  | nil => exact agrees_return start (reads_readWhole.2 ⟨rfl, rfl⟩)
  | cons token tail =>
      apply (agree.chain start).andThen id
      · intro error failed
        exact readWhole_eq_error.2
          (Formula.ofTokens_eq_error.2 ⟨List.cons_ne_nil _ _, Or.inl failed⟩)
      · intro f place left reads here
        apply agrees_ahead here
        cases left with
        | nil =>
            exact agrees_return here
              (reads_readWhole.2 ⟨Formula.ofTokens_cons_eq_ok_iff.2 reads, rfl⟩)
        | cons next rest =>
            exact agrees_throw (readWhole_eq_error.2 (Formula.ofTokens_eq_error.2
              ⟨List.cons_ne_nil _ _, Or.inr ⟨f, _, reads, List.cons_ne_nil _ _, rfl⟩⟩))

/-- Where calls may be stacked four times as deep as there are tokens, and a little deeper, reading
all tokens comes to what the parser makes of them. -/
theorem parseWithin_eq_some {stop depth : Nat} {tokens : List Token}
    (deep : 4 * tokens.length + 1 < depth) :
    parseWithin stop tokens depth = some (Formula.ofTokens stop tokens) := by
  have agrees := (agree_within stop tokens depth).whole
  unfold Agrees at agrees
  unfold parseWithin
  cases outcome : ((Readers.within stop tokens depth).whole tokens).outcome 0 with
  | none =>
      rw [outcome] at agrees
      exact absurd deep agrees
  | some outcome' =>
      rw [outcome] at agrees
      cases outcome' with
      | error error => rw [readWhole_eq_error.1 agrees, Option.map_some, Except.map]
      | ok given =>
          obtain ⟨left, -, reads⟩ := agrees
          rw [(reads_readWhole.1 reads).1, Option.map_some, Except.map]

/-!
### Moving on
-/

/-- Whatever a reader reads from a place on, the tokens that are left begin at a place further on,
at the end of the text at the latest. -/
def MovesOn {α : Type} (tokens : List Token)
    (reader : (left : List Token) → Except ParseError (Parsed left.length α)) : Prop :=
  ∀ position value left, position ≤ tokens.length →
    Reads (reader (tokens.drop position)) value left →
      ∃ next, position < next ∧ At tokens next left

/-- A reader that leaves the end of what it is given moves on, since it leaves fewer tokens. -/
theorem movesOn_of_suffix {α : Type} {tokens : List Token}
    {reader : (left : List Token) → Except ParseError (Parsed left.length α)}
    (suffix : ∀ given value left, Reads (reader given) value left → left <:+ given) :
    MovesOn tokens reader := by
  intro position value left within reads
  have fewer := reads.short
  rw [List.length_drop] at fewer
  have behind : left <:+ tokens := (suffix _ _ _ reads).trans (List.drop_suffix _ _)
  refine ⟨tokens.length - left.length, by omega, Nat.sub_le _ _, ?_⟩
  exact (List.suffix_iff_eq_drop.1 behind).symm

end PredicateLogic.Cursor

namespace PredicateLogic.Parser

/-- No connective binds tighter than a negation, so a chain of such connectives is a primary
formula. -/
theorem chain_negationPower (stop : Nat) (left : List Token) :
    chain stop negationPower left = primary stop left := by
  cases outcome : primary stop left with
  | error error => exact chain_eq_error.2 (Or.inl outcome)
  | ok parsed =>
      have stops : (nextClass parsed.rest).bindingPower ≤ negationPower :=
        Nat.le_trans (bindingPower_nextClass_le _) (by decide)
      obtain ⟨whole, read, value, rest⟩ : Reads (chain stop negationPower left) parsed.value
          parsed.rest :=
        reads_chain.2 ⟨parsed.value, parsed.rest, ⟨parsed, outcome, rfl, rfl⟩,
          (reads_chainFrom_stop stops).2 ⟨rfl, rfl⟩⟩
      rw [read]
      cases whole
      cases parsed
      cases value
      cases rest
      rfl

end PredicateLogic.Parser

namespace PredicateLogic.Cursor

open PredicateLogic.Parser

/-- The parser always moves on.  From any place of any list of tokens, what the readers of primary
formulas, chains and arguments read ends further on, at the end of the text at the latest; a chain
ends where nothing follows that binds tighter than its power; and a chain of the power of negations
is a primary formula.  The readers do what calls do that move a cursor through the tokens, and
parsing by such calls ends, with the outcome of the parser, where they may be stacked four times as
deep as there are tokens, and two deeper. -/
theorem readers_advance (stop : Nat) (tokens : List Token) :
    MovesOn tokens (Parser.primary stop) ∧
      (∀ power, MovesOn tokens (Parser.chain stop power)) ∧
      (∀ owner, MovesOn tokens (Parser.terms stop owner)) ∧
      (∀ power left f rest, Reads (Parser.chain stop power left) f rest →
        (nextClass rest).bindingPower ≤ power) ∧
      (∀ left, Parser.chain stop negationPower left = Parser.primary stop left) ∧
      (∀ depth, (Readers.within stop tokens depth).Agree stop tokens depth) ∧
      (∀ depth, 4 * tokens.length + 1 < depth →
        parseWithin stop tokens depth = some (Formula.ofTokens stop tokens)) := by
  refine ⟨movesOn_of_suffix fun _ _ _ => suffix_of_reads_primary,
    fun power => movesOn_of_suffix fun _ _ _ => suffix_of_reads_chain,
    fun owner => movesOn_of_suffix fun _ _ _ => suffix_of_reads_terms, ?_,
    chain_negationPower stop, agree_within stop tokens, fun depth => parseWithin_eq_some⟩
  intro power left f rest reads
  obtain ⟨-, -, -, ends⟩ := (soundBelow stop _).chain (Nat.lt_succ_self _) reads
  exact ends

/-- The tokens of `!P & (Q`, whose text ends too early. -/
def unclosedTokens : List Token :=
  [⟨.negation, 0, 1⟩, ⟨.predicate "P", 1, 2⟩, ⟨.connective .conjunction, 3, 4⟩,
    ⟨.leftParen, 5, 6⟩, ⟨.predicate "Q", 6, 7⟩]

theorem readers_advance_unclosedTokens :
    4 * unclosedTokens.length + 1 < 22 ∧
      Formula.ofTokens 7 unclosedTokens = .error (.expected .rightParen .endOfText 7) ∧
      ∃ f left next, Reads (Parser.chain 7 negationPower (unclosedTokens.drop 0)) f left ∧
        (nextClass left).bindingPower ≤ negationPower ∧ 0 < next ∧ At unclosedTokens next left := by
  obtain ⟨-, moves, -, ends, -, agree, parses⟩ := readers_advance 7 unclosedTokens
  have deep : 4 * unclosedTokens.length + 1 < 22 := by decide
  have refused : parseWithin 7 unclosedTokens 22 =
      some (.error (.expected .rightParen .endOfText 7)) := rfl
  have negated : ((Readers.within 7 unclosedTokens 22).chain negationPower).outcome 0 =
      some (.ok (.neg (.predicate "P" [] (.between 1 2)) (.between 0 2), 2)) := rfl
  have agrees : Agrees unclosedTokens (4 * 5 + 1 < 22)
      ((Readers.within 7 unclosedTokens 22).chain negationPower) 0
      (Parser.chain 7 negationPower (unclosedTokens.drop 0)) :=
    (agree 22).chain (at_drop (Nat.zero_le _))
  unfold Agrees at agrees
  rw [negated] at agrees
  obtain ⟨left, -, reads⟩ := agrees
  obtain ⟨next, further, place⟩ := moves negationPower 0 _ left (Nat.zero_le _) reads
  refine ⟨deep, Option.some.inj ((parses 22 deep).symm.trans refused), _, left, next, reads,
    ends _ _ _ _ reads, further, place⟩

end PredicateLogic.Cursor
