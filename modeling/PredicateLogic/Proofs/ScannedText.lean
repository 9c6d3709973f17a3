/-
Module: PredicateLogic.Proofs.ScannedText
Purpose: A text and its tokens, as a relation that is taken apart token by token.
  Tokens stand one behind the other within the text (`Scanned.within`, `Scanned.inOrder`), and what
  is read does not depend on where the text starts (`Scanned.moved`).  So a text may be cut in front
  of any token, and behind any token but a function symbol, whose class the parenthesis behind it
  decides: the characters between the cuts are scanned into the tokens that stood there
  (`Scanned.extract`).
Main exports: Token.Scanned, Token.scanFrom_eq_ok_iff, Token.InOrder, Token.Scanned.within,
  Token.Scanned.inOrder, Token.Scanned.moved, Token.Scanned.drop, Token.Scanned.take,
  Token.Scanned.extract
-/
import Mathlib.Data.List.TakeWhile
import PredicateLogic.Token.Scanner

namespace PredicateLogic

/-!
### Reading a shortened text

What is read at the start of a text takes `more` characters after the first.  Characters further
behind matter only to a word, whose class may depend on the one character that follows it.
-/

/-- A list that is cut off behind the first element without a property has the same elements with
the property in front, and the same first one without it. -/
theorem takeWhile_take {α : Type} {p : α → Bool} {xs : List α} {n : Nat}
    (beyond : (xs.takeWhile p).length < n) :
    (xs.take n).takeWhile p = xs.takeWhile p ∧
      ((xs.take n).dropWhile p).head? = (xs.dropWhile p).head? := by
  induction xs generalizing n with
  | nil => simp
  | cons x xs ih =>
      obtain ⟨n, rfl⟩ := Nat.exists_eq_succ_of_ne_zero (Nat.ne_of_gt (Nat.zero_lt_of_lt beyond))
      cases holds : p x with
      | true =>
          simp only [List.takeWhile_cons, holds, if_true, List.length_cons] at beyond
          obtain ⟨front, next⟩ := ih (Nat.lt_of_succ_lt_succ beyond)
          simp [holds, front, next]
      | false => simp [holds]

namespace Lexeme

variable {c : Char} {rest others : List Char} {l : Lexeme} {more n : Nat} {opens : Bool}

/-- What is read at the start of a text is no longer than the text. -/
theorem read?_le (read : read? c rest = some (l, more)) : more ≤ rest.length := by
  unfold read? at read
  split at read
  case h_1 paired =>
    cases read
    cases rest with
    | nil => cases paired
    | cons d rest => simp
  case h_2 =>
    split at read
    case isTrue =>
      cases read
      exact (List.takeWhile_prefix _).length_le
    case isFalse =>
      obtain ⟨l', -, same⟩ := Option.map_eq_some_iff.1 read
      cases same
      exact Nat.zero_le _

/-- Characters beyond the one that follows the first token do not matter to it. -/
theorem read?_take (read : read? c rest = some (l, more)) (beyond : more < n) :
    read? c (rest.take n) = some (l, more) := by
  have next : (rest.take n).head? = rest.head? := by
    rw [List.head?_take, if_neg (Nat.ne_of_gt (Nat.zero_lt_of_lt beyond))]
  unfold read? at read ⊢
  rw [next]
  split at read
  case h_1 => exact read
  case h_2 =>
    split at read
    case isTrue letter =>
      cases read
      obtain ⟨word, follows⟩ := takeWhile_take beyond
      simp only [letter, if_true, word, follows]
    case isFalse notLetter =>
      simp only [notLetter]
      exact read

/-- A word that is no function symbol in front of a parenthesis is the same word without one. -/
theorem ofWord_false (notFunction : (ofWord c others opens).tokenClass ≠ .function) :
    ofWord c others false = ofWord c others opens := by
  cases opens with
  | false => rfl
  | true =>
      unfold ofWord at notFunction ⊢
      grind [tokenClass]

/-- Unless it is a function symbol, the first token is read from its own characters alone. -/
theorem read?_take_self (read : read? c rest = some (l, more))
    (notFunction : l.tokenClass ≠ .function) : read? c (rest.take more) = some (l, more) := by
  unfold read? at read ⊢
  split at read
  case h_1 paired =>
    cases read
    have next : (rest.take 1).head? = rest.head? := by simp [List.head?_take]
    simp only [next, paired]
  case h_2 unpaired =>
    -- What is left has the same next character, or none, and one alone is no pair.
    have unpaired' : (rest.take more).head?.bind (ofPair? c) = none := by
      rw [List.head?_take]
      split
      · rfl
      · exact unpaired
    simp only [unpaired']
    split at read
    case isTrue letter =>
      cases read
      have word : rest.take (rest.takeWhile Char.isAlpha).length = rest.takeWhile Char.isAlpha :=
        (List.prefix_iff_eq_take.1 (List.takeWhile_prefix _)).symm
      have letters : ∀ d ∈ rest.takeWhile Char.isAlpha, d.isAlpha = true :=
        List.all_eq_true.1 List.all_takeWhile
      simp only [letter, if_true, word, List.takeWhile_idem, List.dropWhile_eq_nil_iff.2 letters]
      rw [← ofWord_false notFunction]
      rfl
    case isFalse notLetter =>
      simp only [notLetter]
      exact read

end Lexeme

namespace Token

/-!
### The relation
-/

/-- The text, whose first character stands at the given position, consists of the tokens and of
blanks between them. -/
inductive Scanned : Nat → List Char → List Token → Prop where
  /-- No text, no tokens. -/
  | nil {position : Nat} : Scanned position [] []
  /-- A blank is skipped. -/
  | blank {position : Nat} {c : Char} {rest : List Char} {tokens : List Token}
      (blank : isBlank c = true) (scanned : Scanned (position + 1) rest tokens) :
      Scanned position (c :: rest) tokens
  /-- Anything else starts a token. -/
  | token {position : Nat} {c : Char} {rest : List Char} {l : Lexeme} {more : Nat}
      {tokens : List Token} (visible : isBlank c = false)
      (read : Lexeme.read? c rest = some (l, more))
      (scanned : Scanned (position + 1 + more) (rest.drop more) tokens) :
      Scanned position (c :: rest)
        ({ lexeme := l, start := position, stop := position + 1 + more } :: tokens)

variable {position : Nat} {text : List Char} {tokens : List Token}

/-- The scanner finds the tokens that a text consists of. -/
theorem scanFrom_eq_ok_iff : scanFrom position text = .ok tokens ↔ Scanned position text tokens := by
  constructor
  · intro scanned
    fun_induction scanFrom position text generalizing tokens with
    | case1 position =>
        cases scanned
        exact .nil
    | case2 position c rest blank ih => exact .blank blank (ih scanned)
    | case3 position c rest notBlank refused => cases scanned
    | case4 position c rest notBlank l more read stop =>
        rename_i ih
        cases scannedRest : scanFrom stop (rest.drop more) with
        | error illegal =>
            rw [scannedRest] at scanned
            cases scanned
        | ok others =>
            rw [scannedRest] at scanned
            cases scanned
            exact .token (Bool.eq_false_iff.2 notBlank) read (ih scannedRest)
  · intro scanned
    induction scanned with
    | nil => rw [scanFrom]
    | blank blank scanned ih => rw [scanFrom, if_pos blank, ih]
    | token visible read scanned ih =>
        rw [scanFrom, if_neg (Bool.eq_false_iff.1 visible), read]
        simp only [ih]
        rfl

/-!
### Where the tokens stand
-/

/-- Each token has a character at least, and none starts before the one in front of it ends. -/
structure InOrder (tokens : List Token) : Prop where
  filled : ∀ token ∈ tokens, token.start < token.stop
  apart : tokens.Pairwise fun a b => a.stop ≤ b.start

namespace InOrder

/-- Some neighbouring ones of tokens in order are in order. -/
theorem of_infix {used : List Token} (inOrder : InOrder tokens) (within : used <:+: tokens) :
    InOrder used where
  filled token member := inOrder.filled token (within.subset member)
  apart := inOrder.apart.sublist within.sublist

/-- No token starts before the first one. -/
theorem start_le {first : Token} (inOrder : InOrder tokens) (starts : tokens.head? = some first) :
    ∀ token ∈ tokens, first.start ≤ token.start := by
  obtain ⟨tail, rfl⟩ := List.head?_eq_some_iff.1 starts
  intro token member
  rcases List.mem_cons.1 member with rfl | behind
  · exact Nat.le_refl _
  · have filled := inOrder.filled first List.mem_cons_self
    exact Nat.le_trans (Nat.le_of_lt filled) (List.rel_of_pairwise_cons inOrder.apart behind)

/-- No token ends behind the last one. -/
theorem stop_le {last : Token} (inOrder : InOrder tokens) (ends : tokens.getLast? = some last) :
    ∀ token ∈ tokens, token.stop ≤ last.stop := by
  obtain ⟨inner, rfl⟩ := List.getLast?_eq_some_iff.1 ends
  intro token member
  rcases List.mem_append.1 member with inFront | here
  · have filled := inOrder.filled last (List.mem_append_right inner (List.mem_singleton_self last))
    have apart := (List.pairwise_append.1 inOrder.apart).2.2 token inFront last
      (List.mem_singleton_self last)
    exact Nat.le_trans apart (Nat.le_of_lt filled)
  · rw [List.mem_singleton.1 here]

end InOrder

namespace Scanned

/-- Every token stands within the text. -/
theorem within (scanned : Scanned position text tokens) : ∀ token ∈ tokens,
    position ≤ token.start ∧ token.start < token.stop ∧
      token.stop ≤ position + text.length := by
  induction scanned with
  | nil => simp
  | blank blank scanned ih =>
      intro token member
      obtain ⟨starts, filled, ends⟩ := ih token member
      rw [List.length_cons]
      omega
  | token visible read scanned ih =>
      have short := Lexeme.read?_le read
      intro token member
      rw [List.length_cons]
      rcases List.mem_cons.1 member with rfl | member
      · dsimp only
        omega
      · obtain ⟨starts, filled, ends⟩ := ih token member
        rw [List.length_drop] at ends
        omega

/-- The tokens stand one behind the other. -/
theorem inOrder (scanned : Scanned position text tokens) : InOrder tokens := by
  refine ⟨fun token member => (scanned.within token member).2.1, ?_⟩
  induction scanned with
  | nil => exact List.Pairwise.nil
  | blank blank scanned ih => exact ih
  | token visible read scanned ih =>
      exact List.Pairwise.cons (fun token member => (scanned.within token member).1) ih

/-- Every token starts in front of the end of the text. -/
theorem start_lt_length {text : String} (scanned : Scanned 0 text.toList tokens) :
    ∀ token ∈ tokens, token.start < text.length := by
  intro token member
  have bounds := scanned.within token member
  rw [String.length_toList] at bounds
  omega

/-- Wherever a text stands, it consists of the same lexemes. -/
theorem moved (scanned : Scanned position text tokens) (position' : Nat) :
    ∃ tokens', Scanned position' text tokens' ∧
      tokens'.map Token.lexeme = tokens.map Token.lexeme := by
  induction scanned generalizing position' with
  | nil => exact ⟨[], .nil, rfl⟩
  | blank blank scanned ih =>
      obtain ⟨tokens', scanned', same⟩ := ih (position' + 1)
      exact ⟨tokens', .blank blank scanned', same⟩
  | @token position c rest l more tokens visible read scanned ih =>
      obtain ⟨tokens', scanned', same⟩ := ih (position' + 1 + more)
      exact ⟨_, .token visible read scanned', by rw [List.map_cons, List.map_cons, same]⟩

/-!
### Cutting a text
-/

/-- From a token on, a text consists of this token and those behind it. -/
theorem drop {before after : List Token} {token : Token}
    (scanned : Scanned position text (before ++ token :: after)) :
    Scanned token.start (text.drop (token.start - position)) (token :: after) := by
  generalize split : before ++ token :: after = all at scanned
  induction scanned generalizing before with
  | nil => simp at split
  | @blank position c rest tokens blank scanned ih =>
      obtain ⟨starts, -, -⟩ := scanned.within token (by simp [← split])
      have step : token.start - position = token.start - (position + 1) + 1 := by omega
      rw [step, List.drop_succ_cons]
      exact ih split
  | @token position c rest l more tokens visible read scanned ih =>
      cases before with
      | nil =>
          cases split
          rw [Nat.sub_self, List.drop_zero]
          exact .token visible read scanned
      | cons first before =>
          cases split
          obtain ⟨starts, -, -⟩ := scanned.within token (by simp)
          have step : token.start - position =
              more + (token.start - (position + 1 + more)) + 1 := by
            omega
          rw [step, List.drop_succ_cons, ← List.drop_drop]
          exact ih rfl

/-- Up to a token that is no function symbol, a text consists of this token and those in front of
it. -/
theorem take {before after : List Token} {token : Token}
    (notFunction : token.lexeme.tokenClass ≠ .function)
    (scanned : Scanned position text (before ++ token :: after)) :
    Scanned position (text.take (token.stop - position)) (before ++ [token]) := by
  generalize split : before ++ token :: after = all at scanned
  induction scanned generalizing before with
  | nil => simp at split
  | @blank position c rest tokens blank scanned ih =>
      obtain ⟨starts, filled, -⟩ := scanned.within token (by simp [← split])
      have step : token.stop - position = token.stop - (position + 1) + 1 := by omega
      rw [step, List.take_succ_cons]
      exact .blank blank (ih split)
  | @token position c rest l more tokens visible read scanned ih =>
      cases before with
      | nil =>
          cases split
          have step : position + 1 + more - position = more + 1 := by omega
          change Scanned position ((c :: rest).take (position + 1 + more - position)) _
          rw [step, List.take_succ_cons]
          refine .token visible (Lexeme.read?_take_self read notFunction) ?_
          rw [List.drop_take, Nat.sub_self, List.take_zero]
          exact .nil
      | cons first before =>
          cases split
          obtain ⟨starts, filled, -⟩ := scanned.within token (by simp)
          have step : token.stop - position = token.stop - (position + 1) + 1 := by omega
          rw [step, List.take_succ_cons]
          refine .token visible (Lexeme.read?_take read (by omega)) ?_
          rw [List.drop_take, Nat.sub_sub]
          exact ih rfl

/-- The characters from the start of one token to the end of another that is no function symbol
consist of the lexemes of these tokens and those between them. -/
theorem extract {before used after : List Token} {first last : Token}
    (scanned : Scanned 0 text (before ++ used ++ after)) (starts : used.head? = some first)
    (ends : used.getLast? = some last) (notFunction : last.lexeme.tokenClass ≠ .function) :
    ∃ tokens', Scanned 0 (text.extract first.start last.stop) tokens' ∧
      tokens'.map Token.lexeme = used.map Token.lexeme := by
  have cutFront : Scanned first.start (text.drop (first.start - 0)) (used ++ after) := by
    obtain ⟨tail, rfl⟩ := List.head?_eq_some_iff.1 starts
    rw [List.append_assoc] at scanned
    exact scanned.drop
  have cut : Scanned first.start (text.extract first.start last.stop) used := by
    obtain ⟨inner, rfl⟩ := List.getLast?_eq_some_iff.1 ends
    rw [List.append_assoc] at cutFront
    exact cutFront.take notFunction
  exact cut.moved 0

end Scanned

end Token

end PredicateLogic
