/-
Module: PredicateLogic.Proofs.SpellingRules
Purpose: The rules of spelling in their order, and what a spelling of a class of tokens is.
  A rule lists the ways to write one lexeme, or takes in a word, whose letters and the character
  behind them decide its class.  The scanner follows the first rule that applies
  (`Lexeme.read?_eq_first_rule`), so the characters of a token are a spelling of its class.
Main exports: SpellingRule, SpellingRule.reads, SpellingRule.all, Lexeme.read?_eq_first_rule,
  TokenClass.ofWord, TokenClass.SpelledBy, Lexeme.spelledBy_of_read?
-/
import PredicateLogic.Proofs.TokenBoundaries

namespace PredicateLogic

/-!
### Rules
-/

/-- A rule of spelling. -/
inductive SpellingRule where
  /-- The lexeme is written in one of these ways. -/
  | listed (lexeme : Lexeme) (spellings : List (List Char))
  /-- Letters make a word, as many as there are. -/
  | word
deriving DecidableEq

namespace SpellingRule

/-- The lexeme at the start of a text and the number of characters that spell it, where the rule
applies. -/
def reads : SpellingRule → List Char → Option (Lexeme × Nat)
  | .listed l spellings, text =>
      (spellings.find? fun spelling => spelling.isPrefixOf text).map fun spelling =>
        (l, spelling.length)
  | .word, text =>
      match text.takeWhile Char.isAlpha with
      | [] => none
      | first :: others =>
          some (Lexeme.ofWord first others ((text.dropWhile Char.isAlpha).head? == some '('),
            others.length + 1)

variable {l l' : Lexeme} {spellings : List (List Char)} {text : List Char} {n : Nat}

/-- What a list of spellings reads is one of them. -/
theorem of_reads_listed (read : (listed l spellings).reads text = some (l', n)) :
    l' = l ∧ text.take n ∈ spellings := by
  obtain ⟨spelling, found, same⟩ := Option.map_eq_some_iff.1 read
  obtain ⟨rfl, rfl⟩ := Prod.mk.inj same
  have isPrefix := List.find?_some found
  rw [List.isPrefixOf_iff_prefix] at isPrefix
  rw [← List.prefix_iff_eq_take.1 isPrefix]
  exact ⟨rfl, List.mem_of_find?_eq_some found⟩

/-- What is read as a word consists of letters. -/
theorem of_reads_word (read : word.reads text = some (l, n)) :
    ∃ first others, text.take n = first :: others ∧ (∀ c ∈ first :: others, c.isAlpha = true) ∧
      l = Lexeme.ofWord first others ((text.dropWhile Char.isAlpha).head? == some '(') := by
  simp only [reads] at read
  cases letters : text.takeWhile Char.isAlpha with
  | nil =>
      rw [letters] at read
      cases read
  | cons first others =>
      rw [letters] at read
      obtain ⟨rfl, rfl⟩ := Prod.mk.inj (Option.some.inj read)
      refine ⟨first, others, ?_, ?_, rfl⟩
      · rw [← List.length_cons, ← letters]
        exact (List.prefix_iff_eq_take.1 (List.takeWhile_prefix _)).symm
      · rw [← letters]
        exact List.all_eq_true.1 List.all_takeWhile

/-- The rules in their order of precedence: truth values that are signs, quantifiers, words, and
then the arrow and the other signs. -/
def all : List SpellingRule :=
  [.listed (.literal true) [['1'], ['⊤']],
    .listed (.literal false) [['0'], ['⊥']],
    .listed (.quantifier .universal) [['A', '.'], ['∀']],
    .listed (.quantifier .existential) [['E', '.'], ['∃']],
    .word,
    .listed (.connective .implication) [['-', '>'], ['→']],
    .listed (.connective .conjunction) [['&'], ['∧']],
    .listed (.connective .disjunction) [['|'], ['∨']],
    .listed .negation [['!'], ['¬'], ['~']],
    .listed .leftParen [['(']],
    .listed .rightParen [[')']],
    .listed .comma [[',']]]

/-- The characters are a sign by themselves, or a pair that is one token. -/
def isSign : List Char → Bool
  | [c] => (Lexeme.ofSymbol? c).isSome
  | [c, d] => (Lexeme.ofPair? c d).isSome
  | _ => false

/-- The rules list nothing but signs and pairs. -/
theorem isSign_of_listed {l : Lexeme} {spellings : List (List Char)}
    (member : listed l spellings ∈ all) : ∀ spelling ∈ spellings, isSign spelling = true := by
  have each : ∀ rule ∈ all,
      (match rule with | .listed _ spellings => spellings.all isSign | .word => true) = true := by
    decide
  exact List.all_eq_true.1 (each _ member)

variable {c : Char} {rest : List Char}

/-- Where a text starts with no sign and no pair, no list of spellings applies. -/
theorem reads_listed_eq_none {l : Lexeme} {spellings : List (List Char)}
    (member : listed l spellings ∈ all) (noSign : Lexeme.ofSymbol? c = none)
    (unpaired : ∀ d, rest.head? = some d → Lexeme.ofPair? c d = none) :
    (listed l spellings).reads (c :: rest) = none := by
  have apart : ∀ spelling ∈ spellings, ¬ spelling.isPrefixOf (c :: rest) = true := by
    intro spelling listed isPrefix
    have isSign := isSign_of_listed member spelling listed
    rw [List.isPrefixOf_iff_prefix] at isPrefix
    unfold SpellingRule.isSign at isSign
    obtain ⟨tail, same⟩ := isPrefix
    split at isSign
    case h_1 d =>
      cases same
      simp [noSign] at isSign
    case h_2 d e =>
      cases same
      simp [unpaired e rfl] at isSign
    case h_3 => cases isSign
  simpa [reads, List.find?_eq_none] using apart

/-- Where a function is defined for one element of a list at most, that is the first one. -/
theorem findSome?_eq_of_others {α β : Type} {f : α → Option β} {x : α} {xs : List α}
    (member : x ∈ xs) (others : ∀ y ∈ xs, y ≠ x → f y = none) : xs.findSome? f = f x := by
  cases found : f x with
  | none =>
      rw [List.findSome?_eq_none_iff]
      intro y member
      by_cases same : y = x
      · rw [same, found]
      · exact others y member same
  | some b =>
      obtain ⟨before, after, rfl, notBefore⟩ := List.eq_append_cons_of_mem member
      have skipped : before.findSome? f = none := by
        rw [List.findSome?_eq_none_iff]
        intro y inFront
        exact others y (List.mem_append_left _ inFront) (ne_of_mem_of_not_mem inFront notBefore)
      rw [List.findSome?_append, skipped, Option.none_or, List.findSome?_cons, found]

/-- The first rule that applies to a text without a sign or a pair at its start is that for words,
if any. -/
theorem first_unsigned (noSign : Lexeme.ofSymbol? c = none)
    (unpaired : ∀ d, rest.head? = some d → Lexeme.ofPair? c d = none) :
    all.findSome? (·.reads (c :: rest)) = word.reads (c :: rest) := by
  have skipped : ∀ rule ∈ all, rule ≠ word → rule.reads (c :: rest) = none := by
    intro rule member notWord
    cases rule with
    | listed l spellings => exact reads_listed_eq_none member noSign unpaired
    | word => exact absurd rfl notWord
  exact findSome?_eq_of_others (by decide) skipped

end SpellingRule

namespace Lexeme

variable {c : Char} {rest : List Char} {l : Lexeme} {more : Nat}

/-- A letter is no sign. -/
theorem ofSymbol?_eq_none_of_isAlpha (letter : c.isAlpha = true) : ofSymbol? c = none := by
  unfold ofSymbol?
  split <;> first | rfl | cases letter

/-- What the scanner reads at the start of a token is what the first rule says that applies. -/
theorem read?_eq_first_rule (c : Char) (rest : List Char) :
    SpellingRule.all.findSome? (·.reads (c :: rest)) =
      (read? c rest).map fun (l, more) => (l, more + 1) := by
  cases read : read? c rest with
  | none =>
      obtain ⟨unpaired, notLetter, notSign⟩ := read?_eq_none_iff.1 read
      rw [SpellingRule.first_unsigned notSign unpaired]
      simp [SpellingRule.reads, notLetter]
  | some found =>
      obtain ⟨l, more⟩ := found
      rcases read?_cases read with
        ⟨d, tail, rfl, paired, rfl⟩ | ⟨letter, unpaired, rfl, rfl⟩ | ⟨notLetter, symbolic, rfl⟩
      · rcases ofPair?_cases paired with ⟨rfl, rfl, rfl⟩ | ⟨rfl, rfl, rfl⟩ | ⟨rfl, rfl, rfl⟩ <;>
          simp [SpellingRule.all, SpellingRule.reads]
      · rw [SpellingRule.first_unsigned (ofSymbol?_eq_none_of_isAlpha letter) unpaired]
        simp [SpellingRule.reads, letter]
      · unfold ofSymbol? at symbolic
        split at symbolic <;> cases symbolic <;> simp [SpellingRule.all, SpellingRule.reads]

end Lexeme

/-!
### Spellings
-/

/-- The class of a word: a truth value in any mixture of cases, a predicate after a capital letter,
and otherwise a function symbol exactly if the next character is an opening parenthesis. -/
def TokenClass.ofWord (letters : List Char) (next : Option Char) : TokenClass :=
  if letters.map Char.toLower = ['t', 'r', 'u', 'e'] then .literal true
  else if letters.map Char.toLower = ['f', 'a', 'l', 's', 'e'] then .literal false
  else if letters.head?.any Char.isUpper then .predicate
  else if next = some '(' then .function
  else .var

/-- The characters are a spelling of the class: a rule lists them, or they are a word that is of the
class in some place. -/
def TokenClass.SpelledBy (characters : List Char) (c : TokenClass) : Prop :=
  (∃ l spellings, SpellingRule.listed l spellings ∈ SpellingRule.all ∧ characters ∈ spellings ∧
    l.tokenClass = c) ∨
  (characters ≠ [] ∧ (∀ d ∈ characters, d.isAlpha = true) ∧
    ∃ next, TokenClass.ofWord characters next = c)

namespace Lexeme

variable {c : Char} {rest : List Char} {l : Lexeme} {more : Nat}

theorem tokenClass_ofWord (first : Char) (others : List Char) (next : Option Char) :
    (ofWord first others (next == some '(')).tokenClass =
      TokenClass.ofWord (first :: others) next := by
  unfold ofWord TokenClass.ofWord
  grind [tokenClass]

/-- What is read is spelled by the characters that it takes. -/
theorem spelledBy_of_read? (read : read? c rest = some (l, more)) :
    l.tokenClass.SpelledBy ((c :: rest).take (more + 1)) := by
  have first : SpellingRule.all.findSome? (·.reads (c :: rest)) = some (l, more + 1) := by
    rw [read?_eq_first_rule, read]
    rfl
  obtain ⟨rule, member, reads⟩ := List.exists_of_findSome?_eq_some first
  cases rule with
  | listed l' spellings =>
      obtain ⟨rfl, spelled⟩ := SpellingRule.of_reads_listed reads
      exact Or.inl ⟨l, spellings, member, spelled, rfl⟩
  | word =>
      obtain ⟨initial, others, word, letters, rfl⟩ := SpellingRule.of_reads_word reads
      rw [word]
      exact Or.inr ⟨List.cons_ne_nil initial others, letters, _, (tokenClass_ofWord _ _ _).symm⟩

end Lexeme

end PredicateLogic
