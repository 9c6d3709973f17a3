/-
Module: PredicateLogic.Proofs.Grammar
Purpose: The grammar of formulas over tokens, without binding powers.
  A rule says which tokens spell a phrase, and which tree they spell.  Every tree has the range from
  the first of its tokens to the last (`Spells.span_eq`), so the grammar speaks about source ranges
  as well as about shapes.  In the usual notation:

    formula   ::= chain | chain -> formula
    chain     ::= primary | primary (& or |) chain
    primary   ::= truth value | predicate | predicate ( ) | predicate ( arguments ) | term
                | ! primary | ( formula ) | quantifier variable primary
    term      ::= variable | function ( arguments )
    arguments ::= term | term , arguments

Main exports: Token.range, Phrase, Spells, Spells.ne_nil, Spells.span_eq, Spells.term_of_formula
-/
import PredicateLogic.Formula.Parser

namespace PredicateLogic

/-- The range from the first of some tokens to the last. -/
def Token.range (tokens : List Token) : Span :=
  { start := tokens.head?.map Token.start, stop := tokens.getLast?.map Token.stop }

/-- What a row of tokens can spell. -/
inductive Phrase where
  | term (term : Term)
  | arguments (terms : List Term)
  | primary (formula : Formula)
  | chain (formula : Formula)
  | formula (formula : Formula)

/-- The tokens spell the phrase. -/
inductive Spells : List Token → Phrase → Prop where
  /-- `variable` is a term. -/
  | var {token : Token} {name : String} (named : token.lexeme = .var name) :
      Spells [token] (.term (.var { name := name, span := Token.range [token] }))
  /-- `function ( arguments )` is a term. -/
  | app {head opening closing : Token} {name : String} {inner : List Token} {args : List Term}
      (named : head.lexeme = .function name) (opens : opening.lexeme = .leftParen)
      (arguments : Spells inner (.arguments args)) (closes : closing.lexeme = .rightParen) :
      Spells (head :: opening :: inner ++ [closing])
        (.term (.app name args (Token.range (head :: opening :: inner ++ [closing]))))
  /-- A term is a list of arguments. -/
  | argument {tokens : List Token} {t : Term} (term : Spells tokens (.term t)) :
      Spells tokens (.arguments [t])
  /-- `term , arguments` is a list of arguments. -/
  | moreArguments {first rest : List Token} {comma : Token} {t : Term} {ts : List Term}
      (term : Spells first (.term t)) (separates : comma.lexeme = .comma)
      (others : Spells rest (.arguments ts)) :
      Spells (first ++ comma :: rest) (.arguments (t :: ts))
  /-- A term is a primary formula. -/
  | ofTerm {tokens : List Token} {t : Term} (term : Spells tokens (.term t)) :
      Spells tokens (.primary (.term t))
  /-- A truth value is a primary formula. -/
  | literal {token : Token} {value : Bool} (valued : token.lexeme = .literal value) :
      Spells [token] (.primary (.literal value (Token.range [token])))
  /-- `predicate` is a primary formula. -/
  | proposition {token : Token} {name : String} (named : token.lexeme = .predicate name) :
      Spells [token] (.primary (.predicate name [] (Token.range [token])))
  /-- `predicate ( )` is a primary formula. -/
  | emptyArguments {head opening closing : Token} {name : String}
      (named : head.lexeme = .predicate name) (opens : opening.lexeme = .leftParen)
      (closes : closing.lexeme = .rightParen) :
      Spells [head, opening, closing]
        (.primary (.predicate name [] (Token.range [head, opening, closing])))
  /-- `predicate ( arguments )` is a primary formula. -/
  | predicate {head opening closing : Token} {name : String} {inner : List Token}
      {args : List Term} (named : head.lexeme = .predicate name)
      (opens : opening.lexeme = .leftParen) (arguments : Spells inner (.arguments args))
      (closes : closing.lexeme = .rightParen) :
      Spells (head :: opening :: inner ++ [closing])
        (.primary (.predicate name args (Token.range (head :: opening :: inner ++ [closing]))))
  /-- `! primary` is a primary formula. -/
  | neg {sign : Token} {tokens : List Token} {f : Formula} (negates : sign.lexeme = .negation)
      (argument : Spells tokens (.primary f)) :
      Spells (sign :: tokens) (.primary (.neg f (Token.range (sign :: tokens))))
  /-- `( formula )` is a primary formula. -/
  | group {opening closing : Token} {tokens : List Token} {f : Formula}
      (opens : opening.lexeme = .leftParen) (body : Spells tokens (.formula f))
      (closes : closing.lexeme = .rightParen) :
      Spells (opening :: tokens ++ [closing])
        (.primary (.group f (Token.range (opening :: tokens ++ [closing]))))
  /-- `quantifier variable primary` is a primary formula. -/
  | quantified {sign variableToken : Token} {q : Quantifier} {name : String} {tokens : List Token}
      {f : Formula} (quantifies : sign.lexeme = .quantifier q)
      (named : variableToken.lexeme = .var name) (body : Spells tokens (.primary f)) :
      Spells (sign :: variableToken :: tokens)
        (.primary (.quantified q { name := name, span := Token.range [variableToken] } f
          (Token.range (sign :: variableToken :: tokens))))
  /-- A primary formula is a chain. -/
  | ofPrimary {tokens : List Token} {f : Formula} (primary : Spells tokens (.primary f)) :
      Spells tokens (.chain f)
  /-- `primary & chain` and `primary | chain` are chains. -/
  | joined {left right : List Token} {sign : Token} {c : Connective} {f g : Formula}
      (first : Spells left (.primary f)) (joins : sign.lexeme = .connective c)
      (monotone : c ≠ .implication) (rest : Spells right (.chain g)) :
      Spells (left ++ sign :: right)
        (.chain (.binary c f g (Token.range (left ++ sign :: right))))
  /-- A chain is a formula. -/
  | ofChain {tokens : List Token} {f : Formula} (chain : Spells tokens (.chain f)) :
      Spells tokens (.formula f)
  /-- `chain -> formula` is a formula. -/
  | implies {left right : List Token} {sign : Token} {f g : Formula}
      (premise : Spells left (.chain f)) (joins : sign.lexeme = .connective .implication)
      (conclusion : Spells right (.formula g)) :
      Spells (left ++ sign :: right)
        (.formula (.binary .implication f g (Token.range (left ++ sign :: right))))

namespace Spells

/-- No phrase is spelled by no tokens. -/
theorem ne_nil {tokens : List Token} {phrase : Phrase} (spelled : Spells tokens phrase) :
    tokens ≠ [] := by
  induction spelled with
  | argument term ih => exact ih
  | ofTerm term ih => exact ih
  | ofPrimary primary ih => exact ih
  | ofChain chain ih => exact ih
  | _ => simp

/-- The token that a term or a list of arguments starts with is a name. -/
theorem nextClass_eq {tokens : List Token} {phrase : Phrase} (spelled : Spells tokens phrase)
    (rest : List Token) :
    match phrase with
    | .term _ | .arguments _ => Parser.nextClass (tokens ++ rest) = .var ∨
        Parser.nextClass (tokens ++ rest) = .function
    | _ => True := by
  induction spelled generalizing rest with
  | var named => exact Or.inl (by simp [Parser.nextClass, named, Lexeme.tokenClass])
  | app named => exact Or.inr (by simp [Parser.nextClass, named, Lexeme.tokenClass])
  | argument term ih => exact ih rest
  | moreArguments term separates others ih =>
      simp only [List.append_assoc]
      exact ih _
  | _ => trivial

/-!
### Ranges
-/

theorem range_cons {tokens : List Token} (head : Token) (nonempty : tokens ≠ []) :
    Token.range (head :: tokens) =
      { start := some head.start, stop := (Token.range tokens).stop } := by
  cases tokens with
  | nil => exact absurd rfl nonempty
  | cons next rest => simp [Token.range, List.getLast?_cons]

theorem range_append {left right : List Token} (sign : Token) (nonemptyLeft : left ≠ [])
    (nonemptyRight : right ≠ []) :
    Token.range (left ++ sign :: right) =
      { start := (Token.range left).start, stop := (Token.range right).stop } := by
  cases left with
  | nil => exact absurd rfl nonemptyLeft
  | cons first others =>
      cases right with
      | nil => exact absurd rfl nonemptyRight
      | cons next rest => simp [Token.range, List.getLast?_append, List.getLast?_cons]

theorem range_enclosed (first last : Token) (tokens : List Token) :
    Token.range (first :: tokens ++ [last]) = .between first.start last.stop := by
  simp [Token.range, Span.between, List.getLast?_cons]

/-- A tree has the range of the tokens that spell it. -/
theorem span_eq {tokens : List Token} {phrase : Phrase} (spelled : Spells tokens phrase) :
    match phrase with
    | .term t => t.span = Token.range tokens
    | .arguments _ => True
    | .primary f | .chain f | .formula f => f.span = Token.range tokens := by
  induction spelled with
  | argument term ih => trivial
  | moreArguments term separates others => trivial
  | ofTerm term ih => exact ih
  | ofPrimary primary ih => exact ih
  | ofChain chain ih => exact ih
  | _ => rfl

/-- Tokens that spell a term as a formula spell it as a term: no other rule gives a term. -/
theorem term_of_formula {tokens : List Token} {t : Term}
    (spelled : Spells tokens (.formula (.term t))) : Spells tokens (.term t) := by
  cases spelled with
  | ofChain chain =>
      cases chain with
      | ofPrimary primary =>
          cases primary with
          | ofTerm term => exact term

end Spells

end PredicateLogic
