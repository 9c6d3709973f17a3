/-
Module: PredicateLogic.Proofs.Refusals
Purpose: Where the readers of the parser fail, one statement for each class of the next token.
  A reader fails with an error of its own, about the next token, or where a reader that it calls
  does.  What was read before the failure is told by `Reads`, so nothing after this module has to
  look into a reader that failed.
Main exports: bind_eq_error, Parser.closing_eq_error, Parser.primary_eq_error,
  Parser.primary_predicate_eq_error, Parser.primary_function_eq_error,
  Parser.primary_negation_eq_error, Parser.primary_leftParen_eq_error,
  Parser.primary_quantifier_eq_error, Parser.chain_eq_error, Parser.chainFrom_connective_eq_error,
  Parser.terms_eq_error, Formula.ofTokens_eq_error
-/
import PredicateLogic.Proofs.Reading

namespace PredicateLogic

section

variable {α β : Type} {bound : Nat} {error : ParseError}

/-- Of two readers one after the other, the first fails, or the second does on what is left. -/
theorem bind_eq_error {first : Except ParseError (Parsed bound β)}
    {next : Parsed bound β → Except ParseError α} {fails : β → List Token → Prop}
    (later : ∀ parsed, next parsed = .error error ↔ fails parsed.value parsed.rest) :
    first >>= next = .error error ↔
      first = .error error ∨ ∃ value rest, Reads first value rest ∧ fails value rest := by
  cases first with
  | error e =>
      constructor
      · intro failed
        exact Or.inl (by cases failed; rfl)
      · rintro (failed | ⟨_, _, reads, -⟩)
        · cases failed
          rfl
        · exact absurd reads not_reads_error
  | ok parsed =>
      constructor
      · intro failed
        exact Or.inr ⟨_, _, reads_ok.2 ⟨rfl, rfl⟩, (later parsed).1 failed⟩
      · rintro (failed | ⟨_, _, reads, failed⟩)
        · cases failed
        · obtain ⟨rfl, rfl⟩ := reads_ok.1 reads
          exact (later parsed).2 failed

/-- Putting a value together cannot fail. -/
theorem map_eq_error {first : Except ParseError (Parsed bound β)} {build : Parsed bound β → α} :
    (do let parsed ← first; return build parsed) = .error error ↔ first = .error error := by
  cases first <;> simp [bind, Except.bind, pure, Except.pure]

end

namespace Parser

variable {stop power : Nat} {tokens tail : List Token} {token : Token} {error : ParseError}

/-- What is not a closing parenthesis is refused in its place. -/
theorem closing_eq_error :
    closing stop tokens = .error error ↔ nextClass tokens ≠ .rightParen ∧
      error = .expected .rightParen (nextClass tokens) (nextStart stop tokens) := by
  unfold closing
  split
  case h_1 => simp [nextClass, nextStart, eq_comm]
  case h_2 token rest =>
    have closes : token.lexeme = .rightParen ↔ token.lexeme.tokenClass = .rightParen := by
      cases token.lexeme <;> simp [Lexeme.tokenClass]
    simp only [nextClass, nextStart, ← closes, ne_eq]
    split <;> simp_all [eq_comm]

/-- A reader fails, or the closing parenthesis behind what it reads is missing. -/
theorem enclosed_eq_error {α β : Type} {bound bound' : Nat}
    {first : Except ParseError (Parsed bound β)}
    {build : (inner : Parsed bound β) → Parsed inner.rest.length Token → Parsed bound' α} :
    (do
      let inner ← first
      let close ← closing stop inner.rest
      return build inner close) = .error error ↔
      first = .error error ∨
        ∃ value rest, Reads first value rest ∧ closing stop rest = .error error :=
  bind_eq_error fun _ => map_eq_error

/-!
### Primary formulas
-/

/-- No primary formula starts at the end of the text or with a token of these classes, and what is
found there is reported. -/
theorem primary_eq_error (refused : (nextClass tokens).startsFormula = false) :
    primary stop tokens = .error error ↔
      error = .unexpected (nextClass tokens) (nextStart stop tokens) := by
  cases tokens with
  | nil =>
      rw [primary]
      simp [nextClass, nextStart, eq_comm]
  | cons token tail =>
      obtain ⟨lexeme, start, last⟩ := token
      unfold nextClass at refused ⊢
      rw [primary]
      cases lexeme <;>
        simp_all [Lexeme.tokenClass, TokenClass.startsFormula, nextStart, eq_comm]

theorem primary_var_ne_error {name : String} (named : token.lexeme = .var name) :
    primary stop (token :: tail) ≠ .error error := by
  rw [primary]
  simp [named]

theorem primary_literal_ne_error {value : Bool} (valued : token.lexeme = .literal value) :
    primary stop (token :: tail) ≠ .error error := by
  rw [primary]
  simp [valued]

theorem primary_predicate_empty_ne_error {name : String} {opening close : Token}
    (named : token.lexeme = .predicate name) (opens : opening.lexeme = .leftParen)
    (closes : close.lexeme = .rightParen) :
    primary stop (token :: opening :: close :: tail) ≠ .error error := by
  obtain ⟨_, _, _⟩ := opening
  obtain ⟨_, _, _⟩ := close
  subst opens closes
  rw [primary]
  simp [named]

/-- A predicate symbol is refused for the arguments behind it. -/
theorem primary_predicate_arguments_eq_error {name : String} {opening : Token}
    (named : token.lexeme = .predicate name) (opens : opening.lexeme = .leftParen)
    (filled : nextClass tail ≠ .rightParen) :
    primary stop (token :: opening :: tail) = .error error ↔
      terms stop .predicate tail = .error error ∨
        ∃ args rest, Reads (terms stop .predicate tail) args rest ∧
          closing stop rest = .error error := by
  generalize whole : opening :: tail = tokens
  rw [primary]
  simp only [named]
  split
  case h_1 =>
    cases whole
    exact absurd rfl filled
  case h_2 =>
    cases whole
    exact enclosed_eq_error
  case h_3 alone =>
    obtain ⟨_, _, _⟩ := opening
    subst opens
    exact absurd whole.symm (alone _ _ _)

theorem primary_predicate_alone_ne_error {name : String} (named : token.lexeme = .predicate name)
    (alone : nextClass tail ≠ .leftParen) : primary stop (token :: tail) ≠ .error error := by
  rw [primary]
  simp only [named]
  split
  · exact absurd rfl alone
  · exact absurd rfl alone
  · simp

/-- A function symbol in front of an empty pair of parentheses is refused. -/
theorem primary_function_empty_eq_error {name : String} {opening close : Token}
    (named : token.lexeme = .function name) (opens : opening.lexeme = .leftParen)
    (closes : close.lexeme = .rightParen) :
    primary stop (token :: opening :: close :: tail) = .error error ↔
      error = .emptyArguments token.start := by
  obtain ⟨_, _, _⟩ := opening
  obtain ⟨_, _, _⟩ := close
  subst opens closes
  rw [primary]
  simp [named, eq_comm]

/-- A function symbol is refused for the arguments behind it. -/
theorem primary_function_arguments_eq_error {name : String} {opening : Token}
    (named : token.lexeme = .function name) (opens : opening.lexeme = .leftParen)
    (filled : nextClass tail ≠ .rightParen) :
    primary stop (token :: opening :: tail) = .error error ↔
      terms stop .function tail = .error error ∨
        ∃ args rest, Reads (terms stop .function tail) args rest ∧
          closing stop rest = .error error := by
  generalize whole : opening :: tail = tokens
  rw [primary]
  simp only [named]
  split
  case h_1 =>
    cases whole
    exact absurd rfl filled
  case h_2 =>
    cases whole
    exact enclosed_eq_error
  case h_3 alone =>
    obtain ⟨_, _, _⟩ := opening
    subst opens
    exact absurd whole.symm (alone _ _ _)

/-- A function symbol without a parenthesis behind it is refused. -/
theorem primary_function_alone_eq_error {name : String} (named : token.lexeme = .function name)
    (alone : nextClass tail ≠ .leftParen) :
    primary stop (token :: tail) = .error error ↔
      error = .expected .leftParen (nextClass tail) (nextStart stop tail) := by
  rw [primary]
  simp only [named]
  split
  · exact absurd rfl alone
  · exact absurd rfl alone
  · simp [eq_comm]

/-- A negation is refused for its argument. -/
theorem primary_negation_eq_error (negates : token.lexeme = .negation) :
    primary stop (token :: tail) = .error error ↔
      chain stop negationPower tail = .error error := by
  rw [primary]
  simp only [negates]
  exact map_eq_error

/-- A parenthesis that opens is refused for the formula behind it, or because it is not closed. -/
theorem primary_leftParen_eq_error (opens : token.lexeme = .leftParen) :
    primary stop (token :: tail) = .error error ↔
      chain stop 0 tail = .error error ∨
        ∃ body rest, Reads (chain stop 0 tail) body rest ∧ closing stop rest = .error error := by
  rw [primary]
  simp only [opens]
  exact enclosed_eq_error

/-- A quantifier with its variable is refused for the formula behind them. -/
theorem primary_quantifier_eq_error {q : Quantifier} {name : String} {variableToken : Token}
    (quantifies : token.lexeme = .quantifier q) (named : variableToken.lexeme = .var name) :
    primary stop (token :: variableToken :: tail) = .error error ↔
      primary stop tail = .error error := by
  obtain ⟨_, _, _⟩ := variableToken
  subst named
  rw [primary]
  simp only [quantifies]
  exact map_eq_error

/-- A quantifier without a variable behind it is refused. -/
theorem primary_quantifier_alone_eq_error {q : Quantifier}
    (quantifies : token.lexeme = .quantifier q) (unnamed : nextClass tail ≠ .var) :
    primary stop (token :: tail) = .error error ↔
      error = .missingVariable (nextClass tail) (nextStart stop tail) := by
  rw [primary]
  simp only [quantifies]
  split
  · exact absurd rfl unnamed
  · simp [eq_comm]

/-!
### Chains of connectives
-/

/-- A chain is refused for its first formula, or for what goes on from it. -/
theorem chain_eq_error :
    chain stop power tokens = .error error ↔
      primary stop tokens = .error error ∨
        ∃ first rest, Reads (primary stop tokens) first rest ∧
          chainFrom stop power first rest = .error error := by
  rw [chain]
  exact bind_eq_error fun _ => map_eq_error

/-- A connective that binds tighter than the power is refused for its right operand, or for what
goes on from the two joined. -/
theorem chainFrom_connective_eq_error {left : Formula} {c : Connective}
    (joins : token.lexeme = .connective c) (tighter : power < c.bindingPower) :
    chainFrom stop power left (token :: tail) = .error error ↔
      chain stop (c.bindingPower - 1) tail = .error error ∨
        ∃ right rest, Reads (chain stop (c.bindingPower - 1) tail) right rest ∧
          chainFrom stop power
            (.binary c left right { start := left.span.start, stop := right.span.stop }) rest =
            .error error := by
  obtain ⟨_, _, _⟩ := token
  subst joins
  rw [chainFrom]
  simp only [if_pos tighter]
  exact bind_eq_error fun _ => map_eq_error

/-- Where no connective follows that binds tighter than the power, nothing is refused. -/
theorem chainFrom_stop_ne_error {left : Formula} (ends : (nextClass tokens).bindingPower ≤ power) :
    chainFrom stop power left tokens ≠ .error error := by
  rw [chainFrom.eq_def]
  split
  case h_1 c _ _ tail =>
    have loose : ¬ power < c.bindingPower := Nat.not_lt.2 ends
    simp [if_neg loose]
  case h_2 => simp

/-!
### Arguments
-/

/-- Arguments are refused for the first of them, because it is no term, or for those behind the
comma. -/
theorem terms_eq_error {owner : ArgumentOwner} :
    terms stop owner tokens = .error error ↔
      chain stop 0 tokens = .error error ∨
        ∃ first rest, Reads (chain stop 0 tokens) first rest ∧
          (((∀ t, first ≠ .term t) ∧
              error = .invalidArgument owner first.kind (nextStart stop tokens)) ∨
            ∃ t comma tail, first = .term t ∧ rest = comma :: tail ∧ comma.lexeme = .comma ∧
              terms stop owner tail = .error error) := by
  rw [terms]
  apply bind_eq_error
  intro first
  split
  case h_1 t isTerm =>
    split
    case h_1 start last tail followed =>
      rw [map_eq_error, isTerm, followed]
      constructor
      · intro failed
        exact Or.inr ⟨t, _, tail, rfl, rfl, rfl, failed⟩
      · rintro (⟨noTerm, -⟩ | ⟨_, _, _, -, same, -, failed⟩)
        · exact absurd rfl (noTerm t)
        · cases same
          exact failed
    case h_2 last =>
      constructor
      · intro failed
        cases failed
      · rintro (⟨noTerm, -⟩ | ⟨_, ⟨_, _, _⟩, tail, -, followed, rfl, -⟩)
        · exact absurd isTerm (noTerm t)
        · exact absurd followed (last _ _ tail)
  case h_2 noTerm =>
    constructor
    · intro failed
      cases failed
      exact Or.inl ⟨noTerm, rfl⟩
    · rintro (⟨-, rfl⟩ | ⟨t, _, _, isTerm, -⟩)
      · rfl
      · exact absurd isTerm (noTerm t)

end Parser

/-- Tokens that spell no formula are refused where a reader fails, or for what is left behind a
formula. -/
theorem Formula.ofTokens_eq_error {stop : Nat} {tokens : List Token} {error : ParseError} :
    ofTokens stop tokens = .error error ↔ tokens ≠ [] ∧
      (Parser.chain stop 0 tokens = .error error ∨
        ∃ f rest, Reads (Parser.chain stop 0 tokens) f rest ∧ rest ≠ [] ∧
          error = .unexpected (Parser.nextClass rest) (Parser.nextStart stop rest)) := by
  cases tokens with
  | nil => simp [ofTokens]
  | cons first others =>
      rw [and_iff_right (List.cons_ne_nil first others)]
      unfold ofTokens
      apply bind_eq_error
      intro whole
      cases whole.rest <;> simp [pure, Except.pure, Parser.nextClass, Parser.nextStart, eq_comm]

end PredicateLogic
