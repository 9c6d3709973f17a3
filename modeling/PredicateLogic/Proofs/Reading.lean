/-
Module: PredicateLogic.Proofs.Reading
Purpose: What each reader of the parser can do, one statement for each class of the next token.
  `Reads` says that a reader succeeds, with which value and which tokens left.  A class that a
  reader takes has an equivalence, which serves to take a reading apart and to put one together, and
  the others are refused, so nothing after this module has to look into a reader.
Main exports: Reads, Parser.reads_closing, Parser.reads_primary_var, Parser.reads_primary_literal,
  Parser.reads_primary_predicate_arguments, Parser.reads_primary_function_arguments,
  Parser.reads_primary_negation, Parser.reads_primary_leftParen, Parser.reads_primary_quantifier,
  Parser.not_reads_primary, Parser.reads_chain, Parser.reads_chainFrom_connective,
  Parser.reads_chainFrom_stop, Parser.reads_terms
-/
import PredicateLogic.Formula.Parser

namespace PredicateLogic

/-- The outcome of reading is a value, with some tokens left. -/
def Reads {bound : Nat} {α : Type} (outcome : Except ParseError (Parsed bound α)) (value : α)
    (rest : List Token) : Prop :=
  ∃ parsed, outcome = .ok parsed ∧ value = parsed.value ∧ rest = parsed.rest

section

variable {α β : Type} {bound bound' : Nat} {value : α} {rest : List Token}

/-- Reading leaves fewer tokens than its bound. -/
theorem Reads.short {outcome : Except ParseError (Parsed bound α)}
    (reads : Reads outcome value rest) : rest.length < bound := by
  obtain ⟨parsed, -, -, rfl⟩ := reads
  exact parsed.short

theorem reads_ok {parsed : Parsed bound α} :
    Reads (.ok parsed) value rest ↔ value = parsed.value ∧ rest = parsed.rest := by
  constructor
  · rintro ⟨_, same, given, left⟩
    cases same
    exact ⟨given, left⟩
  · rintro ⟨given, left⟩
    exact ⟨parsed, rfl, given, left⟩

theorem not_reads_error {error : ParseError} :
    ¬ Reads (.error error : Except ParseError (Parsed bound α)) value rest := by
  rintro ⟨_, same, -⟩
  cases same

/-- Two readers one after the other read what the second one makes of the first one's result. -/
theorem reads_bind {first : Except ParseError (Parsed bound β)}
    {next : Parsed bound β → Except ParseError (Parsed bound' α)} :
    Reads (first >>= next) value rest ↔
      ∃ parsed, first = .ok parsed ∧ Reads (next parsed) value rest := by
  cases first with
  | error error =>
      constructor
      · intro reads
        exact absurd reads not_reads_error
      · rintro ⟨_, same, -⟩
        cases same
  | ok parsed =>
      constructor
      · intro reads
        exact ⟨parsed, rfl, reads⟩
      · rintro ⟨_, same, reads⟩
        cases same
        exact reads

end

namespace Parser

variable {rest tokens tail : List Token} {token : Token} {stop power : Nat} {f : Formula}

theorem nextClass_cons {l : Lexeme} (named : token.lexeme = l) (tail : List Token) :
    nextClass (token :: tail) = l.tokenClass :=
  congrArg Lexeme.tokenClass named

/-- Where the next class is that of a symbol, the symbol stands there. -/
theorem exists_of_nextClass {l : Lexeme} (symbolic : l.name? = none)
    (next : nextClass tokens = l.tokenClass) :
    ∃ token tail, tokens = token :: tail ∧ token.lexeme = l := by
  cases tokens with
  | nil => exact absurd next.symm l.tokenClass_ne_endOfText
  | cons token tail =>
      refine ⟨token, tail, rfl, ?_⟩
      unfold nextClass at next
      cases named : token.lexeme <;> cases l <;>
        simp_all [Lexeme.tokenClass, Lexeme.name?]

/-- Where the next class is that of variables, a variable stands there. -/
theorem exists_var_of_nextClass (next : nextClass tokens = .var) :
    ∃ token name tail, tokens = token :: tail ∧ token.lexeme = .var name := by
  cases tokens with
  | nil => cases next
  | cons token tail =>
      unfold nextClass at next
      cases named : token.lexeme with
      | var name => exact ⟨token, name, tail, rfl, named⟩
      | _ => simp [named, Lexeme.tokenClass] at next

/-- Where the next token has a binding power, a connective stands there. -/
theorem exists_connective_of_bindingPower (tighter : power < (nextClass tokens).bindingPower) :
    ∃ token tail c, tokens = token :: tail ∧ token.lexeme = .connective c := by
  cases tokens with
  | nil => exact absurd tighter (Nat.not_lt_zero power)
  | cons token tail =>
      unfold nextClass at tighter
      cases named : token.lexeme with
      | connective c => exact ⟨token, tail, c, rfl, named⟩
      | _ => simp [named, Lexeme.tokenClass, TokenClass.bindingPower] at tighter

/-- A closing parenthesis is read exactly where one stands. -/
theorem reads_closing {close : Token} :
    Reads (closing stop tokens) close rest ↔
      close.lexeme = .rightParen ∧ tokens = close :: rest := by
  unfold closing
  split
  case h_1 => simp [not_reads_error]
  case h_2 token tail =>
    split
    case isTrue closes =>
      rw [reads_ok]
      constructor
      · rintro ⟨rfl, rfl⟩
        exact ⟨closes, rfl⟩
      · rintro ⟨-, same⟩
        cases same
        exact ⟨rfl, rfl⟩
    case isFalse other =>
      constructor
      · intro reads
        exact absurd reads not_reads_error
      · rintro ⟨closes, same⟩
        cases same
        exact absurd closes other

/-- What is read up to a closing parenthesis, and then made into a value together with it. -/
theorem reads_enclosed {α β : Type} {bound bound' : Nat} {value : α}
    {first : Except ParseError (Parsed bound β)}
    {build : (inner : Parsed bound β) → Parsed inner.rest.length Token → Parsed bound' α}
    {make : β → Token → α}
    (values : ∀ inner close, (build inner close).value = make inner.value close.value)
    (rests : ∀ inner close, (build inner close).rest = close.rest) :
    Reads (do
      let inner ← first
      let close ← closing stop inner.rest
      return build inner close) value rest ↔
      ∃ inner close, Reads first inner (close :: rest) ∧ close.lexeme = .rightParen ∧
        value = make inner close := by
  simp only [reads_bind]
  constructor
  · rintro ⟨inner, got, close, closed, reads⟩
    obtain ⟨given, left⟩ := reads_ok.1 reads
    rw [values] at given
    rw [rests] at left
    obtain ⟨closes, split⟩ := reads_closing.1 ⟨close, closed, rfl, left⟩
    exact ⟨inner.value, close.value, ⟨inner, got, rfl, split.symm⟩, closes, given⟩
  · rintro ⟨_, close, ⟨inner, got, rfl, left⟩, closes, given⟩
    have closed : Reads (closing stop inner.rest) close rest :=
      reads_closing.2 ⟨closes, left.symm⟩
    obtain ⟨closed, found, rfl, rest⟩ := closed
    exact ⟨inner, got, closed, found,
      reads_ok.2 ⟨given.trans (values inner closed).symm, rest.trans (rests inner closed).symm⟩⟩

/-!
### Primary formulas
-/

/-- No primary formula starts where the text ends. -/
theorem not_reads_primary_nil : ¬ Reads (primary stop []) f rest := by
  rw [primary]
  exact not_reads_error

/-- No primary formula starts with a token of these classes. -/
theorem not_reads_primary (refused : token.lexeme.tokenClass.startsFormula = false) :
    ¬ Reads (primary stop (token :: tail)) f rest := by
  rw [primary]
  cases named : token.lexeme <;>
    simp_all [Lexeme.tokenClass, TokenClass.startsFormula, not_reads_error]

theorem reads_primary_var {name : String} (named : token.lexeme = .var name) :
    Reads (primary stop (token :: tail)) f rest ↔
      f = .term (.var { name := name, span := .between token.start token.stop }) ∧ rest = tail := by
  rw [primary]
  simp only [named, reads_ok]

theorem reads_primary_literal {value : Bool} (valued : token.lexeme = .literal value) :
    Reads (primary stop (token :: tail)) f rest ↔
      f = .literal value (.between token.start token.stop) ∧ rest = tail := by
  rw [primary]
  simp only [valued, reads_ok]

/-- A predicate symbol in front of an empty pair of parentheses is read with them. -/
theorem reads_primary_predicate_empty {name : String} {opening close : Token}
    (named : token.lexeme = .predicate name) (opens : opening.lexeme = .leftParen)
    (closes : close.lexeme = .rightParen) :
    Reads (primary stop (token :: opening :: close :: tail)) f rest ↔
      f = .predicate name [] (.between token.start close.stop) ∧ rest = tail := by
  obtain ⟨_, _, _⟩ := opening
  obtain ⟨_, _, _⟩ := close
  subst opens closes
  rw [primary]
  simp only [named, reads_ok]

/-- A predicate symbol in front of a parenthesis that does not close at once is read with the
arguments in it. -/
theorem reads_primary_predicate_arguments {name : String} {opening : Token}
    (named : token.lexeme = .predicate name) (opens : opening.lexeme = .leftParen)
    (filled : nextClass tail ≠ .rightParen) :
    Reads (primary stop (token :: opening :: tail)) f rest ↔
      ∃ args close, Reads (terms stop .predicate tail) args (close :: rest) ∧
        close.lexeme = .rightParen ∧
        f = .predicate name args (.between token.start close.stop) := by
  generalize whole : opening :: tail = tokens
  rw [primary]
  simp only [named]
  split
  case h_1 =>
    cases whole
    exact absurd rfl filled
  case h_2 =>
    cases whole
    exact reads_enclosed (fun _ _ => rfl) (fun _ _ => rfl)
  case h_3 alone =>
    obtain ⟨_, _, _⟩ := opening
    subst opens
    exact absurd whole.symm (alone _ _ _)

/-- A predicate symbol that no parenthesis follows is read by itself. -/
theorem reads_primary_predicate_alone {name : String} (named : token.lexeme = .predicate name)
    (alone : nextClass tail ≠ .leftParen) :
    Reads (primary stop (token :: tail)) f rest ↔
      f = .predicate name [] (.between token.start token.stop) ∧ rest = tail := by
  rw [primary]
  simp only [named]
  split
  · exact absurd rfl alone
  · exact absurd rfl alone
  · exact reads_ok

/-- A function symbol in front of an empty pair of parentheses is refused. -/
theorem not_reads_primary_function_empty {name : String} {opening close : Token}
    (named : token.lexeme = .function name) (opens : opening.lexeme = .leftParen)
    (closes : close.lexeme = .rightParen) :
    ¬ Reads (primary stop (token :: opening :: close :: tail)) f rest := by
  obtain ⟨_, _, _⟩ := opening
  obtain ⟨_, _, _⟩ := close
  subst opens closes
  rw [primary]
  simp only [named, not_reads_error, not_false_eq_true]

/-- A function symbol is read with the arguments in the parentheses behind it. -/
theorem reads_primary_function_arguments {name : String} {opening : Token}
    (named : token.lexeme = .function name) (opens : opening.lexeme = .leftParen)
    (filled : nextClass tail ≠ .rightParen) :
    Reads (primary stop (token :: opening :: tail)) f rest ↔
      ∃ args close, Reads (terms stop .function tail) args (close :: rest) ∧
        close.lexeme = .rightParen ∧
        f = .term (.app name args (.between token.start close.stop)) := by
  generalize whole : opening :: tail = tokens
  rw [primary]
  simp only [named]
  split
  case h_1 =>
    cases whole
    exact absurd rfl filled
  case h_2 =>
    cases whole
    exact reads_enclosed (fun _ _ => rfl) (fun _ _ => rfl)
  case h_3 alone =>
    obtain ⟨_, _, _⟩ := opening
    subst opens
    exact absurd whole.symm (alone _ _ _)

/-- A function symbol that no parenthesis follows is refused. -/
theorem not_reads_primary_function_alone {name : String} (named : token.lexeme = .function name)
    (alone : nextClass tail ≠ .leftParen) :
    ¬ Reads (primary stop (token :: tail)) f rest := by
  rw [primary]
  simp only [named]
  split
  · exact absurd rfl alone
  · exact absurd rfl alone
  · exact not_reads_error

/-- A negation is read with what follows it, up to the first connective. -/
theorem reads_primary_negation (negates : token.lexeme = .negation) :
    Reads (primary stop (token :: tail)) f rest ↔
      ∃ argument, Reads (chain stop negationPower tail) argument rest ∧
        f = .neg argument (spanTo token argument) := by
  rw [primary]
  simp only [negates, reads_bind]
  constructor
  · rintro ⟨argument, got, reads⟩
    obtain ⟨rfl, rfl⟩ := reads_ok.1 reads
    exact ⟨argument.value, ⟨argument, got, rfl, rfl⟩, rfl⟩
  · rintro ⟨_, ⟨argument, got, rfl, rfl⟩, rfl⟩
    exact ⟨argument, got, reads_ok.2 ⟨rfl, rfl⟩⟩

/-- A parenthesis that opens is read with the formula up to the one that closes. -/
theorem reads_primary_leftParen (opens : token.lexeme = .leftParen) :
    Reads (primary stop (token :: tail)) f rest ↔
      ∃ body close, Reads (chain stop 0 tail) body (close :: rest) ∧
        close.lexeme = .rightParen ∧ f = .group body (.between token.start close.stop) := by
  rw [primary]
  simp only [opens]
  exact reads_enclosed (fun _ _ => rfl) (fun _ _ => rfl)

/-- A quantifier is read with the variable behind it and one primary formula. -/
theorem reads_primary_quantifier {q : Quantifier} {name : String} {variableToken : Token}
    (quantifies : token.lexeme = .quantifier q) (named : variableToken.lexeme = .var name) :
    Reads (primary stop (token :: variableToken :: tail)) f rest ↔
      ∃ body, Reads (primary stop tail) body rest ∧
        f = .quantified q
          { name := name, span := .between variableToken.start variableToken.stop } body
          (spanTo token body) := by
  obtain ⟨_, _, _⟩ := variableToken
  subst named
  rw [primary]
  simp only [quantifies, reads_bind]
  constructor
  · rintro ⟨body, got, reads⟩
    obtain ⟨rfl, rfl⟩ := reads_ok.1 reads
    exact ⟨body.value, ⟨body, got, rfl, rfl⟩, rfl⟩
  · rintro ⟨_, ⟨body, got, rfl, rfl⟩, rfl⟩
    exact ⟨body, got, reads_ok.2 ⟨rfl, rfl⟩⟩

/-- A quantifier without a variable behind it is refused. -/
theorem not_reads_primary_quantifier {q : Quantifier} (quantifies : token.lexeme = .quantifier q)
    (unnamed : nextClass tail ≠ .var) : ¬ Reads (primary stop (token :: tail)) f rest := by
  rw [primary]
  simp only [quantifies]
  split
  · exact absurd rfl unnamed
  · exact not_reads_error

/-!
### Chains of connectives
-/

/-- A chain is read as a primary formula and what goes on from it. -/
theorem reads_chain :
    Reads (chain stop power tokens) f rest ↔
      ∃ first left, Reads (primary stop tokens) first left ∧
        Reads (chainFrom stop power first left) f rest := by
  rw [chain]
  simp only [reads_bind]
  constructor
  · rintro ⟨first, got, whole, joined, reads⟩
    obtain ⟨rfl, rfl⟩ := reads_ok.1 reads
    exact ⟨first.value, first.rest, ⟨first, got, rfl, rfl⟩, ⟨whole, joined, rfl, rfl⟩⟩
  · rintro ⟨_, _, ⟨first, got, rfl, rfl⟩, ⟨whole, joined, rfl, rfl⟩⟩
    exact ⟨first, got, whole, joined, reads_ok.2 ⟨rfl, rfl⟩⟩

/-- A connective that binds tighter than the power is read with its right operand, which holds
connectives at least as tight, and reading goes on from the two joined. -/
theorem reads_chainFrom_connective {left : Formula} {c : Connective}
    (joins : token.lexeme = .connective c) (tighter : power < c.bindingPower) :
    Reads (chainFrom stop power left (token :: tail)) f rest ↔
      ∃ right between, Reads (chain stop (c.bindingPower - 1) tail) right between ∧
        Reads (chainFrom stop power
          (.binary c left right { start := left.span.start, stop := right.span.stop }) between)
          f rest := by
  obtain ⟨_, _, _⟩ := token
  subst joins
  rw [chainFrom]
  simp only [if_pos tighter, reads_bind]
  constructor
  · rintro ⟨right, got, whole, joined, reads⟩
    obtain ⟨rfl, rfl⟩ := reads_ok.1 reads
    exact ⟨right.value, right.rest, ⟨right, got, rfl, rfl⟩, ⟨whole, joined, rfl, rfl⟩⟩
  · rintro ⟨_, _, ⟨right, got, rfl, rfl⟩, ⟨whole, joined, rfl, rfl⟩⟩
    exact ⟨right, got, whole, joined, reads_ok.2 ⟨rfl, rfl⟩⟩

/-- Where no connective follows that binds tighter than the power, reading ends. -/
theorem reads_chainFrom_stop {left : Formula} (ends : (nextClass tokens).bindingPower ≤ power) :
    Reads (chainFrom stop power left tokens) f rest ↔ f = left ∧ rest = tokens := by
  rw [chainFrom.eq_def]
  split
  case h_1 c _ _ tail =>
    have loose : ¬ power < c.bindingPower := Nat.not_lt.2 ends
    simp only [if_neg loose, reads_ok]
  case h_2 => exact reads_ok

/-!
### Arguments
-/

/-- Arguments are read as a formula that is a term, and more arguments if a comma follows. -/
theorem reads_terms {owner : ArgumentOwner} {args : List Term} :
    Reads (terms stop owner tokens) args rest ↔
      ∃ t left, Reads (chain stop 0 tokens) (.term t) left ∧
        ((nextClass left ≠ .comma ∧ args = [t] ∧ rest = left) ∨
          ∃ comma tail others, left = comma :: tail ∧ comma.lexeme = .comma ∧
            Reads (terms stop owner tail) others rest ∧ args = t :: others) := by
  rw [terms]
  simp only [reads_bind]
  constructor
  · rintro ⟨first, got, reads⟩
    split at reads
    case h_1 t isTerm =>
      refine ⟨t, first.rest, ⟨first, got, isTerm.symm, rfl⟩, ?_⟩
      split at reads
      case h_1 followed =>
        obtain ⟨others, rest, reads⟩ := reads_bind.1 reads
        obtain ⟨rfl, rfl⟩ := reads_ok.1 reads
        exact Or.inr ⟨_, _, others.value, followed, rfl, ⟨others, rest, rfl, rfl⟩, rfl⟩
      case h_2 last =>
        obtain ⟨rfl, rfl⟩ := reads_ok.1 reads
        refine Or.inl ⟨?_, rfl, rfl⟩
        intro isComma
        obtain ⟨⟨_, start, stop⟩, tail, followed, rfl⟩ :=
          exists_of_nextClass (l := .comma) rfl isComma
        exact last start stop tail followed
    case h_2 =>
      exact absurd reads not_reads_error
  · rintro ⟨t, _, ⟨first, got, isTerm, rfl⟩, more⟩
    refine ⟨first, got, ?_⟩
    split
    case h_1 t' isTerm' =>
      cases isTerm.trans isTerm'
      split
      case h_1 start last tail followed =>
        rcases more with ⟨notComma, -⟩ | ⟨comma, tail', others, followed', -, reads, rfl⟩
        · exact absurd (congrArg nextClass followed) notComma
        · cases followed.symm.trans followed'
          obtain ⟨others, got, rfl, rfl⟩ := reads
          exact reads_bind.2 ⟨others, got, reads_ok.2 ⟨rfl, rfl⟩⟩
      case h_2 last =>
        rcases more with ⟨-, rfl, rfl⟩ | ⟨comma, tail, others, followed, isComma, -⟩
        · exact reads_ok.2 ⟨rfl, rfl⟩
        · obtain ⟨_, _, _⟩ := comma
          subst isComma
          exact absurd followed (last _ _ _)
    case h_2 notTerm =>
      exact absurd isTerm.symm (notTerm t)

end Parser

end PredicateLogic
