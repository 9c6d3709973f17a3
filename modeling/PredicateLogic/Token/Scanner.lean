/-
Module: PredicateLogic.Token.Scanner
Purpose: Cutting formula text into tokens.
Main exports:
  Token.isBlank, Lexeme.ofSymbol?, Lexeme.ofPair?, Lexeme.ofWord, Lexeme.read?,
  IllegalCharacter, Token.scanFrom, Token.scan
-/
import PredicateLogic.Token.Basic

namespace PredicateLogic

/-!
### Spellings

At the start of a token the pair of the next two characters is tried first: a quantifier written
with a letter and a point, or an arrow.  Then a letter starts a word, which takes in all letters
that follow.  Any other character has to be a symbol by itself.
-/

namespace Lexeme

/-- The lexeme that one character spells by itself. -/
def ofSymbol? : Char → Option Lexeme
  | '1' => some (.literal true)
  | '⊤' => some (.literal true)
  | '0' => some (.literal false)
  | '⊥' => some (.literal false)
  | '∀' => some (.quantifier .universal)
  | '∃' => some (.quantifier .existential)
  | '→' => some (.connective .implication)
  | '&' => some (.connective .conjunction)
  | '∧' => some (.connective .conjunction)
  | '|' => some (.connective .disjunction)
  | '∨' => some (.connective .disjunction)
  | '!' => some .negation
  | '¬' => some .negation
  | '~' => some .negation
  | '(' => some .leftParen
  | ')' => some .rightParen
  | ',' => some .comma
  | _ => none

/-- The lexeme that two neighbouring characters spell together. -/
def ofPair? : Char → Char → Option Lexeme
  | 'A', '.' => some (.quantifier .universal)
  | 'E', '.' => some (.quantifier .existential)
  | '-', '>' => some (.connective .implication)
  | _, _ => none

/-- The lexeme that a word spells.  The two truth values are words in any mixture of cases.
Otherwise a capital letter starts a predicate, and any other word is a function symbol exactly
when a parenthesis opens right behind it. -/
def ofWord (first : Char) (others : List Char) (opens : Bool) : Lexeme :=
  let word := first :: others
  let lower := word.map Char.toLower
  if lower = ['t', 'r', 'u', 'e'] then .literal true
  else if lower = ['f', 'a', 'l', 's', 'e'] then .literal false
  else if first.isUpper then .predicate (String.ofList word)
  else if opens then .function (String.ofList word)
  else .var (String.ofList word)

/-- The lexeme at the start of a text, with the number of characters it takes after the first. -/
def read? (c : Char) (rest : List Char) : Option (Lexeme × Nat) :=
  match rest.head?.bind (ofPair? c) with
  | some lexeme => some (lexeme, 1)
  | none =>
      if c.isAlpha then
        let others := rest.takeWhile Char.isAlpha
        let opens := (rest.dropWhile Char.isAlpha).head? == some '('
        some (ofWord c others opens, others.length)
      else
        (ofSymbol? c).map fun lexeme => (lexeme, 0)

end Lexeme

/-!
### Scanning

Blanks separate tokens and are skipped.  A character at which no token can start ends the scan.
-/

/-- A character at which no token can start, and where it stands. -/
structure IllegalCharacter where
  character : Char
  position : Nat
deriving Repr, DecidableEq

namespace Token

/-- The characters that may stand between tokens: ASCII white space. -/
def isBlank (c : Char) : Bool :=
  c == ' ' || c == '\t' || c == '\r' || c == '\n' || c == '\x0c' || c == '\x0b'

/-- The tokens of a text whose first character stands at the given position. -/
def scanFrom (position : Nat) : List Char → Except IllegalCharacter (List Token)
  | [] => .ok []
  | c :: rest =>
      if isBlank c then
        scanFrom (position + 1) rest
      else
        match Lexeme.read? c rest with
        | none => .error { character := c, position := position }
        | some (lexeme, more) => do
            let stop := position + 1 + more
            let others ← scanFrom stop (rest.drop more)
            return { lexeme := lexeme, start := position, stop := stop } :: others
termination_by text => text.length

/-- The tokens of a text, in order. -/
def scan (text : String) : Except IllegalCharacter (List Token) :=
  scanFrom 0 text.toList

end Token

end PredicateLogic
