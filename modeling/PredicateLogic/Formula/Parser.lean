/-
Module: PredicateLogic.Formula.Parser
Purpose: Reading a formula from tokens by operator precedence.
Main exports:
  Parsed, Parser.primary, Parser.chain, Parser.chainFrom, Parser.terms,
  Formula.ofTokens, Formula.parse
-/
import PredicateLogic.Formula.ParseError
import PredicateLogic.Formula.BindingPower
import PredicateLogic.Token.Scanner

namespace PredicateLogic

/-!
### Reading a part of a formula

Each reader takes the tokens that are left and gives back what it read with the tokens that are
left after it.  The count of those tokens is below a bound that the type names, so every reader
makes progress and reading ends.
-/

/-- What was read, and fewer than `bound` tokens that are left. -/
structure Parsed (bound : Nat) (α : Type) where
  value : α
  rest : List Token
  short : rest.length < bound
deriving Repr

namespace Parser

/-- The class of the next token, or the end of the text. -/
def nextClass : List Token → TokenClass
  | [] => .endOfText
  | token :: _ => token.lexeme.tokenClass

/-- Where the next token starts, or the text stops. -/
def nextStart (stop : Nat) : List Token → Nat
  | [] => stop
  | token :: _ => token.start

/-- The range from the start of a token to the end of a formula that was read after it. -/
def spanTo (token : Token) (last : Formula) : Span :=
  { start := some token.start, stop := last.span.stop }

/-- Reads a closing parenthesis. -/
def closing (stop : Nat) (tokens : List Token) :
    Except ParseError (Parsed tokens.length Token) :=
  match tokens with
  | [] => .error (.expected .rightParen .endOfText stop)
  | token :: rest =>
      if token.lexeme = .rightParen then
        .ok { value := token, rest := rest, short := by simp }
      else
        .error (.expected .rightParen token.lexeme.tokenClass token.start)

/-!
### The readers

`primary` reads one formula without connectives outside parentheses, `chain` one whose connectives
bind tighter than a given power, `chainFrom` the connectives and right operands that go on from a
formula already read, and `terms` the terms of an argument list up to, and not including, the
closing parenthesis.

An argument is read as a formula, so that a message can say what it is, and refused when it is not
a term.  A quantifier takes one primary formula, so connectives after it stay outside its body.
-/

mutual

/-- Reads one formula without connectives outside parentheses. -/
def primary (stop : Nat) (tokens : List Token) :
    Except ParseError (Parsed tokens.length Formula) :=
  match tokens with
  | [] => .error (.unexpected .endOfText stop)
  | token :: rest =>
      match token.lexeme with
      | .var name =>
          .ok
            { value := .term (.var
                { name := name, span := .between token.start token.stop })
              rest := rest
              short := by simp }
      | .literal value =>
          .ok
            { value := .literal value (.between token.start token.stop)
              rest := rest
              short := by simp }
      | .predicate name =>
          match rest with
          | ⟨.leftParen, _, _⟩ :: ⟨.rightParen, _, close⟩ :: after =>
              .ok
                { value := .predicate name [] (.between token.start close)
                  rest := after
                  short := by simp; omega }
          | ⟨.leftParen, _, _⟩ :: inner => do
              let args ← terms stop .predicate inner
              let close ← closing stop args.rest
              return {
                value := .predicate name args.value (.between token.start close.value.stop)
                rest := close.rest
                short := by have := args.short; have := close.short; simp; omega }
          | after =>
              .ok
                { value := .predicate name [] (.between token.start token.stop)
                  rest := after
                  short := by simp }
      | .function name =>
          match rest with
          | ⟨.leftParen, _, _⟩ :: ⟨.rightParen, _, _⟩ :: _ =>
              .error (.emptyArguments token.start)
          | ⟨.leftParen, _, _⟩ :: inner => do
              let args ← terms stop .function inner
              let close ← closing stop args.rest
              return {
                value := .term
                  (.app name args.value (.between token.start close.value.stop))
                rest := close.rest
                short := by have := args.short; have := close.short; simp; omega }
          | after =>
              .error (.expected .leftParen (nextClass after) (nextStart stop after))
      | .negation => do
          let argument ← chain stop negationPower rest
          return {
            value := .neg argument.value (spanTo token argument.value)
            rest := argument.rest
            short := by have := argument.short; simp; omega }
      | .leftParen => do
          let body ← chain stop 0 rest
          let close ← closing stop body.rest
          return {
            value := .group body.value (.between token.start close.value.stop)
            rest := close.rest
            short := by have := body.short; have := close.short; simp; omega }
      | .quantifier quantifier =>
          match rest with
          | ⟨.var name, first, last⟩ :: inner => do
              let body ← primary stop inner
              return {
                value := .quantified quantifier
                  { name := name, span := .between first last } body.value
                  (spanTo token body.value)
                rest := body.rest
                short := by have := body.short; simp; omega }
          | after => .error (.missingVariable (nextClass after) (nextStart stop after))
      | other => .error (.unexpected other.tokenClass token.start)
termination_by 4 * tokens.length
decreasing_by
  all_goals simp_all
  all_goals omega

/-- Reads a formula whose connectives bind tighter than `power`. -/
def chain (stop power : Nat) (tokens : List Token) :
    Except ParseError (Parsed tokens.length Formula) := do
  let first ← primary stop tokens
  let whole ← chainFrom stop power first.value first.rest
  return {
    value := whole.value
    rest := whole.rest
    short := by have := first.short; have := whole.short; omega }
termination_by 4 * tokens.length + 1
decreasing_by
  · omega
  · have := first.short
    omega

/-- Reads on from a formula, as long as connectives follow that bind tighter than `power`. -/
def chainFrom (stop power : Nat) (left : Formula) (tokens : List Token) :
    Except ParseError (Parsed (tokens.length + 1) Formula) :=
  match tokens with
  | ⟨.connective connective, start, last⟩ :: rest =>
      if power < connective.bindingPower then do
        let right ← chain stop (connective.bindingPower - 1) rest
        let span : Span := { start := left.span.start, stop := right.value.span.stop }
        let whole ← chainFrom stop power (.binary connective left right.value span) right.rest
        return {
          value := whole.value
          rest := whole.rest
          short := by have := right.short; have := whole.short; simp; omega }
      else
        .ok
          { value := left
            rest := ⟨.connective connective, start, last⟩ :: rest
            short := Nat.lt_succ_self _ }
  | after => .ok { value := left, rest := after, short := Nat.lt_succ_self _ }
termination_by 4 * tokens.length
decreasing_by
  · simp
    omega
  · have := right.short
    simp
    omega

/-- Reads the terms of an argument list, separated by commas. -/
def terms (stop : Nat) (owner : ArgumentOwner) (tokens : List Token) :
    Except ParseError (Parsed tokens.length (List Term)) := do
  let first ← chain stop 0 tokens
  match first.value with
  | .term argument =>
      match h : first.rest with
      | ⟨.comma, _, _⟩ :: rest => do
          let others ← terms stop owner rest
          return {
            value := argument :: others.value
            rest := others.rest
            short := by
              have bound := first.short
              have := others.short
              rw [h] at bound
              simp at bound
              omega }
      | after =>
          return {
            value := [argument]
            rest := after
            short := by rw [← h]; exact first.short }
  | other => .error (.invalidArgument owner other.kind (nextStart stop tokens))
termination_by 4 * tokens.length + 2
decreasing_by
  · omega
  · have bound := first.short
    rw [h] at bound
    simp at bound
    omega

end

end Parser

namespace Formula

/-- The formula that a list of tokens spells in full.  No tokens spell the empty formula; `stop`
is where the text ends. -/
def ofTokens (stop : Nat) (tokens : List Token) : Except ParseError Formula :=
  match tokens with
  | [] => .ok (.empty (.between 0 0))
  | _ => do
      let whole ← Parser.chain stop 0 tokens
      match whole.rest with
      | [] => return whole.value
      | token :: _ => .error (.unexpected token.lexeme.tokenClass token.start)

/-- The formula that a text spells. -/
def parse (text : String) : Except ParseError Formula :=
  match Token.scan text with
  | .error illegal => .error (.illegalCharacter illegal.character illegal.position)
  | .ok tokens => ofTokens text.length tokens

end Formula

end PredicateLogic
