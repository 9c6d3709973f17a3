/-
Module: PredicateLogic.Proofs.JudgedTokens
Purpose: A token that the parser reports cannot be accepted, whatever follows it.
  Two texts with the same lexemes up to the token that was refused in the one are refused at the
  same token, with the same error, and two texts with the same lexemes throughout have the same
  formula or the same error.
Main exports: Token.InOrder.index_eq, Formula.ofTokens_settled, Formula.parse_settled_by_lexemes
-/
import PredicateLogic.Proofs.ParserGrammar
import PredicateLogic.Proofs.SettledReadings

namespace PredicateLogic

open PredicateLogic.Parser

namespace AgreeThrough

variable {n k : Nat} {tokens tokens' : List Token}

/-- Tokens whose first ones have the same lexemes agree up to the last of those. -/
theorem of_take (same : (tokens'.take (k + 1)).map Token.lexeme =
    (tokens.take (k + 1)).map Token.lexeme) : AgreeThrough k tokens tokens' := by
  intro i bound
  have inside : i < k + 1 := Nat.lt_succ_of_le bound
  have here := congrArg (·[i]?) same
  simpa [List.getElem?_take_of_lt inside] using here.symm

/-- Tokens with the same lexemes agree everywhere. -/
theorem of_map (same : tokens'.map Token.lexeme = tokens.map Token.lexeme) (n : Nat) :
    AgreeThrough n tokens tokens' := by
  intro i _
  have here := congrArg (·[i]?) same
  simpa using here.symm

end AgreeThrough

/-!
### Places of tokens
-/

namespace Parser

variable {stop n : Nat} {tokens : List Token}

/-- Nothing is left where the end of the text comes next, as no token has its class. -/
theorem nextClass_eq_endOfText_iff : nextClass tokens = .endOfText ↔ tokens = [] := by
  cases tokens with
  | nil => exact iff_of_true rfl rfl
  | cons token tail =>
      exact iff_of_false token.lexeme.tokenClass_ne_endOfText (List.cons_ne_nil _ _)

/-- Behind some tokens the next one starts, or the text stops. -/
theorem nextStart_drop :
    nextStart stop (tokens.drop n) = (tokens[n]?.map Token.start).getD stop := by
  rw [← List.head?_drop]
  cases tokens.drop n <;> rfl

end Parser

/-- Tokens that agree with others come to an end where those do. -/
theorem AgreeThrough.drop_eq_nil_iff {last n : Nat} {tokens tokens' : List Token}
    (agree : AgreeThrough last tokens tokens') (bound : n ≤ last) :
    tokens'.drop n = [] ↔ tokens.drop n = [] := by
  rw [← nextClass_eq_endOfText_iff, ← nextClass_eq_endOfText_iff, agree.nextClass_eq bound]

/-- In a text a token is known by where it starts. -/
theorem Token.InOrder.index_eq {tokens : List Token} {token : Token} {stop n k : Nat}
    (inOrder : Token.InOrder tokens) (inFront : ∀ token ∈ tokens, token.start < stop)
    (here : tokens[k]? = some token) (starts : nextStart stop (tokens.drop n) = token.start) :
    n = k := by
  have apart {i j : Nat} {a b : Token} (first : tokens[i]? = some a) (second : tokens[j]? = some b)
      (before : i < j) : a.start < b.start := by
    obtain ⟨boundA, rfl⟩ := List.getElem?_eq_some_iff.1 first
    obtain ⟨boundB, rfl⟩ := List.getElem?_eq_some_iff.1 second
    exact Nat.lt_of_lt_of_le (inOrder.filled _ (List.getElem_mem boundA))
      (List.pairwise_iff_getElem.1 inOrder.apart i j boundA boundB before)
  rw [nextStart_drop] at starts
  cases there : tokens[n]? with
  | none =>
      rw [there] at starts
      exact absurd starts.symm (Nat.ne_of_lt (inFront token (List.mem_of_getElem? here)))
  | some other =>
      rw [there] at starts
      rcases Nat.lt_trichotomy n k with before | same | behind
      · exact absurd starts (Nat.ne_of_lt (apart there here before))
      · exact same
      · exact absurd starts (Nat.ne_of_gt (apart here there behind))

namespace Formula

variable {tokens : List Token}

/-- What the parser makes of some tokens is settled by their lexemes, and a refusal by those up to a
last one. -/
theorem ofTokens_settled (tokens : List Token) :
    (∃ tree, ∀ (stop : Nat) {tokens' : List Token},
      tokens'.map Token.lexeme = tokens.map Token.lexeme →
        ∃ f, ofTokens stop tokens' = .ok f ∧ f.bare = tree) ∨
    ∃ (last place : Nat) (error : ParseError), (error.found?.isSome → place = last) ∧
      ∀ (stop : Nat) {tokens' : List Token}, AgreeThrough last tokens tokens' →
        ofTokens stop tokens' = .error (error.movedTo (nextStart stop (tokens'.drop place))) := by
  by_cases empty : tokens = []
  case pos =>
    subst empty
    refine Or.inl ⟨.empty .unknown, fun stop {tokens'} same => ?_⟩
    obtain rfl := List.map_eq_nil_iff.1 same
    exact ⟨.empty (.between 0 0), rfl, rfl⟩
  have nonempty {last : Nat} {tokens' : List Token} (agree : AgreeThrough last tokens tokens') :
      tokens' ≠ [] :=
    mt (agree.drop_eq_nil_iff (Nat.zero_le last)).1 empty
  have settled := (settledBelow _).chain 0 (Nat.lt_succ_self tokens.length)
  cases settled with
  | refused last place error judged all =>
      exact Or.inr ⟨last, place, error, judged, fun stop {tokens'} agree =>
        ofTokens_eq_error.2 ⟨nonempty agree, Or.inl (all stop agree)⟩⟩
  | read used tree all =>
      by_cases whole : tokens.drop used = []
      · refine Or.inl ⟨tree, fun stop {tokens'} same => ?_⟩
        have agree := AgreeThrough.of_map same used
        obtain ⟨f, reads, alike⟩ := all stop agree
        rw [(agree.drop_eq_nil_iff (Nat.le_refl used)).2 whole] at reads
        obtain ⟨token', tail', rfl⟩ := List.exists_cons_of_ne_nil (nonempty agree)
        exact ⟨f, ofTokens_cons_eq_ok_iff.2 reads, alike⟩
      · refine Or.inr ⟨used, used, .unexpected (nextClass (tokens.drop used)) 0, fun _ => rfl,
          fun stop {tokens'} agree => ?_⟩
        obtain ⟨f, reads, -⟩ := all stop agree
        have leftOver := mt (agree.drop_eq_nil_iff (Nat.le_refl used)).1 whole
        rw [← agree.nextClass_eq (Nat.le_refl used)]
        exact ofTokens_eq_error.2 ⟨nonempty agree, Or.inr ⟨f, _, reads, leftOver, rfl⟩⟩

/-- A token that is reported among some tokens is reported among any that start with the same
lexemes, this token's included. -/
theorem ofTokens_reports_alike {tokens' : List Token} {token : Token} {error : ParseError}
    {stop k : Nat} (inOrder : Token.InOrder tokens) (inFront : ∀ token ∈ tokens, token.start < stop)
    (failed : ofTokens stop tokens = .error error) (found : error.found?.isSome)
    (here : tokens[k]? = some token) (starts : error.position = token.start)
    (same : (tokens'.take (k + 1)).map Token.lexeme = (tokens.take (k + 1)).map Token.lexeme)
    (stop' : Nat) :
    ∃ token', tokens'[k]? = some token' ∧
      ofTokens stop' tokens' = .error (error.movedTo token'.start) := by
  rcases ofTokens_settled tokens with ⟨tree, all⟩ | ⟨last, place, refusal, judged, all⟩
  · obtain ⟨f, parsed, -⟩ := all stop rfl
    cases parsed.symm.trans failed
  · obtain rfl := Except.error.inj ((all stop (.refl last tokens)).symm.trans failed)
    rw [ParseError.found?_movedTo] at found
    rw [ParseError.position_movedTo] at starts
    obtain rfl := inOrder.index_eq inFront here starts
    obtain rfl := judged found
    have agree := AgreeThrough.of_take same
    obtain ⟨token', here', -⟩ := Option.map_eq_some_iff.1
      ((agree place (Nat.le_refl place)).symm.trans (congrArg (Option.map Token.lexeme) here))
    refine ⟨token', here', ?_⟩
    rw [all stop' agree, nextStart_drop, here', ParseError.movedTo_movedTo]
    rfl

/-- Tokens with the same lexemes have the same formula, or the same error about the same one of
them. -/
theorem ofTokens_alike {tokens' : List Token}
    (same : tokens'.map Token.lexeme = tokens.map Token.lexeme) (stop stop' : Nat) :
    (∃ f f', ofTokens stop tokens = .ok f ∧ ofTokens stop' tokens' = .ok f' ∧ f'.SameAs f) ∨
      ∃ (error : ParseError) (n : Nat),
        ofTokens stop tokens = .error (error.movedTo (nextStart stop (tokens.drop n))) ∧
        ofTokens stop' tokens' = .error (error.movedTo (nextStart stop' (tokens'.drop n))) := by
  rcases ofTokens_settled tokens with ⟨tree, all⟩ | ⟨last, place, error, -, all⟩
  · obtain ⟨f, parsed, rfl⟩ := all stop rfl
    obtain ⟨f', parsed', alike⟩ := all stop' same
    exact Or.inl ⟨f, f', parsed, parsed', alike⟩
  · exact Or.inr ⟨error, place, all stop (.refl last tokens), all stop' (.of_map same last)⟩

/-- A scanned text is parsed as its tokens are. -/
theorem parse_eq_ofTokens {text : String} (scanned : Token.scan text = .ok tokens) :
    parse text = ofTokens text.length tokens := by
  rw [parse, scanned]

/-- Of two scanned texts, a token that the parser reports in the one is reported in the other as
well, with the same error, as soon as the lexemes are the same up to this token.  Where they are the
same throughout, the two have the same formula, or they fail with the same error about the same
token. -/
theorem parse_settled_by_lexemes {text text' : String} {tokens tokens' : List Token}
    (scanned : Token.scan text = .ok tokens) (scanned' : Token.scan text' = .ok tokens') :
    (∀ error k token, parse text = .error error → error.found?.isSome →
      tokens[k]? = some token → error.position = token.start →
      (tokens'.take (k + 1)).map Token.lexeme = (tokens.take (k + 1)).map Token.lexeme →
      ∃ token', tokens'[k]? = some token' ∧ parse text' = .error (error.movedTo token'.start)) ∧
    (tokens'.map Token.lexeme = tokens.map Token.lexeme →
      (∃ f f', parse text = .ok f ∧ parse text' = .ok f' ∧ f'.SameAs f) ∨
      ∃ (error : ParseError) (n : Nat),
        parse text = .error (error.movedTo (nextStart text.length (tokens.drop n))) ∧
        parse text' = .error (error.movedTo (nextStart text'.length (tokens'.drop n)))) := by
  have consists := Token.scanFrom_eq_ok_iff.1 scanned
  rw [parse_eq_ofTokens scanned, parse_eq_ofTokens scanned']
  constructor
  · intro error k token failed found here starts same
    exact ofTokens_reports_alike consists.inOrder consists.start_lt_length failed found here starts
      same _
  · intro same
    exact ofTokens_alike same _ _

/-- A connective where an argument should start is refused at its own place, however the text goes
on. -/
theorem parse_settled_by_lexemes_argument :
    ∃ tokens tokens', Token.scan "P(x, &" = .ok tokens ∧ Token.scan "P( x ,&y)" = .ok tokens' ∧
      (tokens'.take 5).map Token.lexeme = (tokens.take 5).map Token.lexeme ∧
      parse "P(x, &" = .error (.unexpected (.connective .conjunction) 5) ∧
      parse "P( x ,&y)" = .error (.unexpected (.connective .conjunction) 6) := by
  have scanned : Token.scan "P(x, &" = .ok
      [⟨.predicate "P", 0, 1⟩, ⟨.leftParen, 1, 2⟩, ⟨.var "x", 2, 3⟩, ⟨.comma, 3, 4⟩,
        ⟨.connective .conjunction, 5, 6⟩] := by decide +kernel
  have scanned' : Token.scan "P( x ,&y)" = .ok
      [⟨.predicate "P", 0, 1⟩, ⟨.leftParen, 1, 2⟩, ⟨.var "x", 3, 4⟩, ⟨.comma, 5, 6⟩,
        ⟨.connective .conjunction, 6, 7⟩, ⟨.var "y", 7, 8⟩, ⟨.rightParen, 8, 9⟩] := by
    decide +kernel
  have failed : parse "P(x, &" = .error (.unexpected (.connective .conjunction) 5) := by
    decide +kernel
  obtain ⟨token', here, failed'⟩ :=
    (parse_settled_by_lexemes scanned scanned').1 _ 4 _ failed rfl rfl rfl rfl
  cases here
  exact ⟨_, _, scanned, scanned', rfl, failed, failed'⟩

end Formula

end PredicateLogic
