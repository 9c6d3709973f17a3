/-
Module: PredicateLogic.Proofs.TokenCursor
Purpose: The parser as readers that move a cursor, with nothing that makes them stop.
  The readers call each other, and each round of a loop is a call, too.  Calls may be stacked to a
  given depth only, and have no outcome beyond it, so nothing is said beforehand about how far a
  call gets.  One layer of calls leaves open what the calls below it come to (`Readers.layer`), and
  `Readers.within` stacks layers.  A call agrees with a reader of the parser if it comes to the
  same, and comes to something wherever its calls may be stacked deep enough (`Agrees`).
Main exports: Cursor.Walk, Cursor.At, Cursor.Readers, Cursor.Readers.layer, Cursor.Readers.within,
  Cursor.parseWithin, Cursor.Agrees, Cursor.Agrees.andThen, Cursor.Agrees.enclosed
-/
import PredicateLogic.Proofs.Refusals

namespace PredicateLogic.Cursor

open PredicateLogic.Parser

/-!
### A cursor over tokens

The cursor counts the tokens that were consumed.  Behind the last token is the end of the text,
which is never consumed: there the cursor stays where it is.
-/

/-- Work with a cursor that may fail, and may have no outcome at all. -/
abbrev Walk (α : Type) := StateT Nat (ExceptT ParseError Option) α

/-- What work comes to from a position on: an error, or a value and the position it ends at. -/
def Walk.outcome {α : Type} (work : Walk α) (position : Nat) :
    Option (Except ParseError (α × Nat)) :=
  (work.run position).run

/-- Work that has no outcome. -/
def stuck {α : Type} : Walk α := fun _ => ExceptT.mk none

/-- The tokens from the cursor on. -/
def ahead (tokens : List Token) : Walk (List Token) := do
  return tokens.drop (← get)

/-- Consumes the next token, but not the end of the text. -/
def advance (tokens : List Token) : Walk Unit :=
  modify fun position => if position < tokens.length then position + 1 else position

/-- Where the next token stops, or the text does. -/
def nextStop (stop : Nat) : List Token → Nat
  | [] => stop
  | token :: _ => token.stop

/-- Consumes the next token if it is of the class that is wanted. -/
def expect (stop : Nat) (tokens : List Token) (wanted : TokenClass) : Walk Unit := do
  let left ← ahead tokens
  if nextClass left = wanted then
    advance tokens
  else
    throw (.expected wanted (nextClass left) (nextStart stop left))

/-- Consumes a closing parenthesis, and gives the place where it stops. -/
def expectClosing (stop : Nat) (tokens : List Token) : Walk Nat := do
  let left ← ahead tokens
  expect stop tokens .rightParen
  return nextStop stop left

/-!
### Readers
-/

/-- The readers, for those that call them: of a primary formula, of a chain whose connectives bind
tighter than a power, of what goes on from a formula, and of an argument list. -/
structure Readers where
  primary : Walk Formula
  chain : (power : Nat) → Walk Formula
  chainFrom : (power : Nat) → (left : Formula) → Walk Formula
  terms : (owner : ArgumentOwner) → Walk (List Term)

namespace Readers

/-- The arguments of a predicate symbol, whose parentheses may be empty. -/
def optionalTerms (tokens : List Token) (below : Readers) : Walk (List Term) := do
  let left ← ahead tokens
  if nextClass left = .rightParen then
    return []
  else
    below.terms .predicate

/-- What is read behind a predicate symbol. -/
def behindPredicate (stop : Nat) (tokens : List Token) (token : Token) (name : String)
    (below : Readers) : Walk Formula := do
  let left ← ahead tokens
  if nextClass left = .leftParen then do
    advance tokens
    let args ← below.optionalTerms tokens
    let last ← expectClosing stop tokens
    return .predicate name args (.between token.start last)
  else
    return .predicate name [] (.between token.start token.stop)

/-- What is read behind a function symbol. -/
def behindFunction (stop : Nat) (tokens : List Token) (token : Token) (name : String)
    (below : Readers) : Walk Formula := do
  expect stop tokens .leftParen
  let left ← ahead tokens
  if nextClass left = .rightParen then
    throw (.emptyArguments token.start)
  else do
    let args ← below.terms .function
    let last ← expectClosing stop tokens
    return .term (.app name args (.between token.start last))

/-- What is read behind a negation. -/
def behindNegation (token : Token) (below : Readers) : Walk Formula := do
  let argument ← below.chain negationPower
  return .neg argument (spanTo token argument)

/-- What is read behind a parenthesis that opens. -/
def behindLeftParen (stop : Nat) (tokens : List Token) (token : Token) (below : Readers) :
    Walk Formula := do
  let body ← below.chain 0
  let last ← expectClosing stop tokens
  return .group body (.between token.start last)

/-- What is read behind a quantifier. -/
def behindQuantifier (stop : Nat) (tokens : List Token) (token : Token) (q : Quantifier)
    (below : Readers) : Walk Formula := do
  match ← ahead tokens with
  | ⟨.var name, first, last⟩ :: _ => do
      advance tokens
      let body ← below.primary
      return .quantified q { name := name, span := .between first last } body
        (spanTo token body)
  | left => throw (.missingVariable (nextClass left) (nextStart stop left))

/-- What is read behind the token that a primary formula starts with. -/
def behind (stop : Nat) (tokens : List Token) (token : Token) (below : Readers) : Walk Formula :=
  match token.lexeme with
  | .var name => return .term (.var { name := name, span := .between token.start token.stop })
  | .literal value => return .literal value (.between token.start token.stop)
  | .predicate name => below.behindPredicate stop tokens token name
  | .function name => below.behindFunction stop tokens token name
  | .negation => below.behindNegation token
  | .leftParen => below.behindLeftParen stop tokens token
  | .quantifier q => below.behindQuantifier stop tokens token q
  | other => throw (.unexpected other.tokenClass token.start)

/-- One call of the reader of primary formulas.  A token is consumed before anything is said about
it. -/
def primaryLayer (stop : Nat) (tokens : List Token) (below : Readers) : Walk Formula := do
  let left ← ahead tokens
  advance tokens
  match left with
  | [] => throw (.unexpected .endOfText stop)
  | token :: _ => below.behind stop tokens token

/-- One call of the reader of chains. -/
def chainLayer (power : Nat) (below : Readers) : Walk Formula := do
  let first ← below.primary
  below.chainFrom power first

/-- One round of the loop over connectives. -/
def chainFromLayer (tokens : List Token) (power : Nat) (left : Formula) (below : Readers) :
    Walk Formula := do
  match ← ahead tokens with
  | ⟨.connective connective, _, _⟩ :: _ =>
      if power < connective.bindingPower then do
        advance tokens
        let right ← below.chain (connective.bindingPower - 1)
        let span : Span := { start := left.span.start, stop := right.span.stop }
        below.chainFrom power (.binary connective left right span)
      else
        return left
  | _ => return left

/-- One round of the loop over arguments. -/
def termsLayer (stop : Nat) (tokens : List Token) (owner : ArgumentOwner) (below : Readers) :
    Walk (List Term) := do
  let left ← ahead tokens
  match ← below.chain 0 with
  | .term argument => do
      let behind ← ahead tokens
      if nextClass behind = .comma then do
        advance tokens
        let others ← below.terms owner
        return argument :: others
      else
        return [argument]
  | other => throw (.invalidArgument owner other.kind (nextStart stop left))

/-- The readers of one layer, which call those of the layer below. -/
def layer (stop : Nat) (tokens : List Token) (below : Readers) : Readers where
  primary := below.primaryLayer stop tokens
  chain := fun power => below.chainLayer power
  chainFrom := fun power left => below.chainFromLayer tokens power left
  terms := fun owner => below.termsLayer stop tokens owner

/-- The readers whose calls may be stacked to a depth. -/
def within (stop : Nat) (tokens : List Token) : Nat → Readers
  | 0 => { primary := stuck, chain := fun _ => stuck, chainFrom := fun _ _ => stuck,
           terms := fun _ => stuck }
  | depth + 1 => (within stop tokens depth).layer stop tokens

/-- Reads all tokens.  Where there are none, the formula is empty. -/
def whole (tokens : List Token) (readers : Readers) : Walk Formula := do
  match ← ahead tokens with
  | [] => return .empty (.between 0 0)
  | _ :: _ => do
      let f ← readers.chain 0
      match ← ahead tokens with
      | [] => return f
      | token :: _ => throw (.unexpected token.lexeme.tokenClass token.start)

end Readers

/-- The formula that tokens spell in full, if reading it stacks no more calls than the depth. -/
def parseWithin (stop : Nat) (tokens : List Token) (depth : Nat) :
    Option (Except ParseError Formula) :=
  (((Readers.within stop tokens depth).whole tokens).outcome 0).map (·.map Prod.fst)

/-!
### Places
-/

/-- The cursor is in front of the tokens that are left, or at the end of the text. -/
structure At (tokens : List Token) (position : Nat) (left : List Token) : Prop where
  within : position ≤ tokens.length
  left_eq : tokens.drop position = left

section

variable {tokens left tail : List Token} {token : Token} {position : Nat}

theorem at_drop (within : position ≤ tokens.length) : At tokens position (tokens.drop position) :=
  { within := within, left_eq := rfl }

theorem At.length_eq (place : At tokens position left) :
    left.length = tokens.length - position := by
  rw [← place.left_eq, List.length_drop]

theorem At.lt (place : At tokens position (token :: tail)) : position < tokens.length := by
  have := place.length_eq
  rw [List.length_cons] at this
  omega

/-- Behind a token are the others. -/
theorem At.next (place : At tokens position (token :: tail)) : At tokens (position + 1) tail where
  within := place.lt
  left_eq := by rw [← List.drop_drop, place.left_eq, List.drop_one, List.tail_cons]

end

/-!
### Agreement

What work with a cursor comes to is followed step by step, while the reader that it is compared with
stays the same: what the steps have read tells in the end what the reader does.
-/

section

variable {α β : Type} {bound bound' : Nat} {tokens left tail : List Token} {token : Token}
  {enough enough' : Prop} {position stop : Nat} {value : α} {error : ParseError}
  {reading : Except ParseError (Parsed bound α)} {first : Except ParseError (Parsed bound' β)}
  {work : Walk α} {before : Walk β} {next : β → Walk α}

/-- Work comes to what a reader does: to the same error, or to the same value with the cursor in
front of the tokens that are left.  It may come to nothing, but not where calls may be stacked deep
enough. -/
def Agrees (tokens : List Token) (enough : Prop) (work : Walk α) (position : Nat)
    (reading : Except ParseError (Parsed bound α)) : Prop :=
  match work.outcome position with
  | none => ¬ enough
  | some (.error error) => reading = .error error
  | some (.ok (value, next)) => ∃ left, At tokens next left ∧ Reads reading value left

theorem outcome_advance (tokens : List Token) (position : Nat) :
    (advance tokens).outcome position =
      some (.ok ((), if position < tokens.length then position + 1 else position)) := rfl

theorem outcome_bind (before : Walk β) (next : β → Walk α) (position : Nat) :
    (before >>= next).outcome position =
      match before.outcome position with
      | none => none
      | some (.error error) => some (.error error)
      | some (.ok (value, place)) => (next value).outcome place := by
  change ((before.run position >>= fun given => (next given.1).run given.2) :
    ExceptT ParseError Option (α × Nat)).run = _
  rw [ExceptT.run_bind]
  unfold Walk.outcome
  cases (before.run position).run with
  | none => rfl
  | some outcome => cases outcome <;> rfl

theorem agrees_stuck (shallow : ¬ enough) : Agrees tokens enough stuck position reading :=
  shallow

theorem agrees_throw (failed : reading = .error error) :
    Agrees tokens enough (throw error) position reading :=
  failed

theorem agrees_return (place : At tokens position left) (reads : Reads reading value left) :
    Agrees tokens enough (pure value) position reading :=
  ⟨left, place, reads⟩

/-- Where the reader fails with what is read first it is the same error, and else the work goes on
from what was read. -/
theorem Agrees.andThen (agrees : Agrees tokens enough' before position first)
    (deep : enough → enough') (fails : ∀ error, first = .error error → reading = .error error)
    (goesOn : ∀ value place left, Reads first value left → At tokens place left →
      Agrees tokens enough (next value) place reading) :
    Agrees tokens enough (before >>= next) position reading := by
  unfold Agrees at agrees ⊢
  rw [outcome_bind]
  cases outcome : before.outcome position with
  | none =>
      rw [outcome] at agrees
      exact fun holds => agrees (deep holds)
  | some outcome' =>
      rw [outcome] at agrees
      cases outcome' with
      | error error => exact fails error agrees
      | ok given =>
          obtain ⟨left, place, reads⟩ := agrees
          exact goesOn given.1 given.2 left reads place

/-- What is read last is what the reader reads. -/
theorem Agrees.last {last : Except ParseError (Parsed bound' α)}
    (agrees : Agrees tokens enough' work position last) (deep : enough → enough')
    (fails : ∀ error, last = .error error → reading = .error error)
    (reads : ∀ value left, Reads last value left → Reads reading value left) :
    Agrees tokens enough work position reading := by
  have steps : Agrees tokens enough (work >>= pure) position reading :=
    agrees.andThen deep fails fun value place left read here =>
      agrees_return here (reads value left read)
  rwa [bind_pure] at steps

/-- Work that is known to succeed is passed over. -/
theorem agrees_of_outcome {given : β} {place : Nat}
    (here : before.outcome position = some (.ok (given, place)))
    (agrees : Agrees tokens enough (next given) place reading) :
    Agrees tokens enough (before >>= next) position reading := by
  unfold Agrees
  rw [outcome_bind, here]
  exact agrees

theorem agrees_ahead {next : List Token → Walk α} (place : At tokens position left)
    (agrees : Agrees tokens enough (next left) position reading) :
    Agrees tokens enough (ahead tokens >>= next) position reading := by
  apply agrees_of_outcome _ agrees
  rw [← place.left_eq]
  rfl

theorem agrees_advance {next : Unit → Walk α} (place : At tokens position (token :: tail))
    (agrees : Agrees tokens enough (next ()) (position + 1) reading) :
    Agrees tokens enough (advance tokens >>= next) position reading := by
  apply agrees_of_outcome _ agrees
  rw [outcome_advance, if_pos place.lt]

/-- At the end of the text the cursor stays where it is. -/
theorem agrees_advance_end {next : Unit → Walk α} (place : At tokens position [])
    (agrees : Agrees tokens enough (next ()) position reading) :
    Agrees tokens enough (advance tokens >>= next) position reading := by
  have none : 0 = tokens.length - position := place.length_eq
  have ended : ¬ position < tokens.length := by omega
  apply agrees_of_outcome _ agrees
  rw [outcome_advance, if_neg ended]

/-- The token that is wanted is consumed, and any other refused. -/
theorem agrees_expect {next : Unit → Walk α} {l : Lexeme} (symbolic : l.name? = none)
    (place : At tokens position left)
    (missing : nextClass left ≠ l.tokenClass →
      reading = .error (.expected l.tokenClass (nextClass left) (nextStart stop left)))
    (found : ∀ token tail, left = token :: tail → token.lexeme = l →
      At tokens (position + 1) tail → Agrees tokens enough (next ()) (position + 1) reading) :
    Agrees tokens enough (expect stop tokens l.tokenClass >>= next) position reading := by
  unfold expect
  rw [bind_assoc]
  apply agrees_ahead place
  by_cases wanted : nextClass left = l.tokenClass
  · obtain ⟨token, tail, rfl, named⟩ := exists_of_nextClass symbolic wanted
    rw [if_pos wanted]
    exact agrees_advance place (found token tail rfl named place.next)
  · rw [if_neg wanted]
    exact missing wanted

/-- A closing parenthesis is consumed where the parser reads one. -/
theorem agrees_expectClosing {next : Nat → Walk α} (place : At tokens position left)
    (missing : ∀ error, Parser.closing stop left = .error error → reading = .error error)
    (closed : ∀ close tail, left = close :: tail → close.lexeme = .rightParen →
      At tokens (position + 1) tail →
      Agrees tokens enough (next close.stop) (position + 1) reading) :
    Agrees tokens enough (expectClosing stop tokens >>= next) position reading := by
  unfold expectClosing
  rw [bind_assoc]
  apply agrees_ahead place
  rw [bind_assoc]
  apply agrees_expect (l := .rightParen) rfl place
  · intro unclosed
    exact missing _ (closing_eq_error.2 ⟨unclosed, rfl⟩)
  · rintro close tail rfl closes behind
    exact closed close tail rfl closes behind

/-- What is read up to a closing parenthesis is made into a value together with it. -/
theorem Agrees.enclosed {make : β → Nat → α} (agrees : Agrees tokens enough' before position first)
    (deep : enough → enough')
    (fails : ∀ error, (first = .error error ∨ ∃ value left, Reads first value left ∧
      closing stop left = .error error) → reading = .error error)
    (reads : ∀ value close rest, Reads first value (close :: rest) → close.lexeme = .rightParen →
      Reads reading (make value close.stop) rest) :
    Agrees tokens enough
      (do
        let value ← before
        let last ← expectClosing stop tokens
        return make value last) position reading := by
  apply agrees.andThen deep
  · intro error failed
    exact fails error (Or.inl failed)
  · intro value place left read here
    apply agrees_expectClosing here
    · intro error unclosed
      exact fails error (Or.inr ⟨value, left, read, unclosed⟩)
    · rintro close rest rfl closes behind
      exact agrees_return behind (reads value close rest read closes)

end

end PredicateLogic.Cursor
