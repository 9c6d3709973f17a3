/-
Module: PredicateLogic.Proofs.SettledReadings
Purpose: What a reader makes of some tokens is settled by those it has judged.
  A reader that succeeds has judged the tokens that it took and the next one, and a reader that
  fails has judged those up to a last one.  Other tokens with the same lexemes up to there give the
  same tree or the same error, wherever they stand and whatever follows (`Parser.Settled`).  The
  places of the tokens go into source ranges and positions of errors and into no decision.
Main exports: AgreeThrough, ParseError.movedTo, Parser.Settled, Parser.Settled.ofPart,
  Parser.Settled.behind, Parser.Settled.enclosed, Parser.reads_chainFrom_left,
  Parser.SettledBelow, Parser.settledBelow
-/
import PredicateLogic.Formula.Sameness
import PredicateLogic.Proofs.LocatedErrors

namespace PredicateLogic

open PredicateLogic.Parser

/-!
### Tokens with the same lexemes
-/

/-- The tokens have the same lexemes up to an index, and where the ones end the others do. -/
def AgreeThrough (last : Nat) (tokens tokens' : List Token) : Prop :=
  ∀ i ≤ last, tokens[i]?.map Token.lexeme = tokens'[i]?.map Token.lexeme

namespace AgreeThrough

variable {last n : Nat} {tokens tokens' tail : List Token} {token : Token}

theorem refl (last : Nat) (tokens : List Token) : AgreeThrough last tokens tokens :=
  fun _ _ => rfl

theorem mono (agree : AgreeThrough last tokens tokens') (fewer : n ≤ last) :
    AgreeThrough n tokens tokens' :=
  fun i bound => agree i (Nat.le_trans bound fewer)

/-- Behind some tokens on each side the others agree as before. -/
theorem drop (agree : AgreeThrough (n + last) tokens tokens') :
    AgreeThrough last (tokens.drop n) (tokens'.drop n) := by
  intro i bound
  rw [List.getElem?_drop, List.getElem?_drop]
  exact agree (n + i) (Nat.add_le_add_left bound n)

/-- At every index up to the last one the same class comes next. -/
theorem nextClass_eq (agree : AgreeThrough last tokens tokens') (bound : n ≤ last) :
    nextClass (tokens'.drop n) = nextClass (tokens.drop n) := by
  have next (tokens : List Token) : nextClass (tokens.drop n) =
      (tokens[n]?.map Token.lexeme).elim .endOfText Lexeme.tokenClass := by
    cases here : tokens[n]? with
    | none => rw [List.drop_eq_nil_of_le (List.getElem?_eq_none_iff.1 here)]; rfl
    | some token =>
        obtain ⟨bound, rfl⟩ := List.getElem?_eq_some_iff.1 here
        rw [List.drop_eq_getElem_cons bound]
        rfl
  rw [next, next, agree n bound]

/-- Where there is a token on one side, there is one with its lexeme on the other. -/
theorem exists_cons (agree : AgreeThrough last (token :: tail) tokens') :
    ∃ token' tail', tokens' = token' :: tail' ∧ token'.lexeme = token.lexeme := by
  have first := agree 0 (Nat.zero_le last)
  cases tokens' with
  | nil => cases first
  | cons token' tail' => exact ⟨token', tail', rfl, (Option.some.inj first).symm⟩

/-- Behind the first token on each side the others agree as before. -/
theorem behindFirst {token' : Token} {tail' : List Token}
    (agree : AgreeThrough (last + 1) (token :: tail) (token' :: tail')) :
    AgreeThrough last tail tail' :=
  fun i bound => agree (i + 1) (Nat.succ_le_succ bound)

end AgreeThrough

/-!
### The same error in another place
-/

/-- The error with all that it says, about another place. -/
def ParseError.movedTo (place : Nat) : ParseError → ParseError
  | .illegalCharacter c _ => .illegalCharacter c place
  | .expected wanted found _ => .expected wanted found place
  | .unexpected found _ => .unexpected found place
  | .invalidArgument owner got _ => .invalidArgument owner got place
  | .emptyArguments _ => .emptyArguments place
  | .missingVariable found _ => .missingVariable found place

namespace ParseError

variable (error : ParseError) (place place' : Nat)

@[simp] theorem position_movedTo : (error.movedTo place).position = place := by
  cases error <;> rfl

@[simp] theorem found?_movedTo : (error.movedTo place).found? = error.found? := by
  cases error <;> rfl

@[simp] theorem movedTo_movedTo : (error.movedTo place).movedTo place' = error.movedTo place' := by
  cases error <;> rfl

end ParseError

namespace Formula

variable {f g : Formula}

/-- The same formula as a term is a term, the same up to ranges. -/
theorem SameAs.exists_term {t : Term} (same : f.SameAs (.term t)) :
    ∃ t', f = .term t' ∧ t'.bare = t.bare := by
  unfold SameAs at same
  cases f with
  | term t' => exact ⟨t', Eq.refl _, Formula.term.inj same⟩
  | _ => cases same

theorem kind_bare (f : Formula) : f.bare.kind = f.kind := by
  cases f with
  | term t => cases t <;> rfl
  | _ => rfl

theorem SameAs.kind_eq (same : f.SameAs g) : f.kind = g.kind := by
  rw [← kind_bare f, same, kind_bare]

end Formula

namespace Parser

/-!
### Settled readings
-/

/-- Where the next class behind some tokens is that of a symbol, the symbol stands there and the
others follow. -/
theorem exists_drop_of_nextClass {l : Lexeme} {tokens : List Token} {n : Nat}
    (symbolic : l.name? = none) (next : nextClass (tokens.drop n) = l.tokenClass) :
    ∃ token, tokens.drop n = token :: tokens.drop (n + 1) ∧ token.lexeme = l := by
  obtain ⟨token, rest, split, named⟩ := exists_of_nextClass symbolic next
  refine ⟨token, ?_, named⟩
  rw [← List.drop_drop, split]
  rfl

/-- What a reader makes of the tokens is settled by the first of them.  It succeeds with the same
tree, up to ranges, on all tokens with the same lexemes up to those that are left; or it fails on
them with the same error, about the same token.  An error about a token that was found where another
was needed is about the last one that was judged. -/
inductive Settled {α β : Type} {bound : List Token → Nat} (bare : α → β)
    (reader : (stop : Nat) → (tokens : List Token) → Except ParseError (Parsed (bound tokens) α))
    (tokens : List Token) : Prop where
  /-- Besides the tokens that were taken the next one has been judged: nothing goes on with it. -/
  | read (used : Nat) (tree : β)
      (all : ∀ (stop : Nat) {tokens' : List Token}, AgreeThrough used tokens tokens' →
        ∃ value, Reads (reader stop tokens') value (tokens'.drop used) ∧ bare value = tree)
  /-- The tokens up to index `last` have been judged, and the one at `place` is reported. -/
  | refused (last place : Nat) (error : ParseError) (judged : error.found?.isSome → place = last)
      (all : ∀ (stop : Nat) {tokens' : List Token}, AgreeThrough last tokens tokens' →
        reader stop tokens' = .error (error.movedTo (nextStart stop (tokens'.drop place))))

namespace Settled

variable {α β γ δ : Type} {bound bound' : List Token → Nat} {bare : α → β} {bare' : γ → δ}
  {part : (stop : Nat) → (tokens : List Token) → Except ParseError (Parsed (bound tokens) α)}
  {whole : (stop : Nat) → (tokens : List Token) → Except ParseError (Parsed (bound' tokens) γ)}
  {tokens : List Token} {k : Nat}

/-- A whole that fails where its part behind `k` tokens fails is settled as soon as it is settled
where the part is read. -/
theorem ofPart (settled : Settled bare part (tokens.drop k))
    (fails : ∀ {stop : Nat} {tokens' : List Token} {error : ParseError},
      AgreeThrough k tokens tokens' → part stop (tokens'.drop k) = .error error →
        whole stop tokens' = .error error)
    (goesOn : ∀ used tree,
      (∀ (stop : Nat) {tokens' : List Token}, AgreeThrough (k + used) tokens tokens' →
        ∃ value, Reads (part stop (tokens'.drop k)) value (tokens'.drop (k + used)) ∧
          bare value = tree) →
      Settled bare' whole tokens) : Settled bare' whole tokens := by
  cases settled with
  | refused last place error judged all =>
      refine .refused (k + last) (k + place) error (fun found => by rw [judged found])
        fun stop {tokens'} agree => ?_
      have failed := all stop agree.drop
      rw [List.drop_drop] at failed
      exact fails (agree.mono (Nat.le_add_right k last)) failed
  | read used tree all =>
      refine goesOn used tree fun stop {tokens'} agree => ?_
      have reads := all stop agree.drop
      rwa [List.drop_drop] at reads

/-- The part is read behind `k` tokens and decides about the whole. -/
theorem behind (settled : Settled bare part (tokens.drop k)) (make : β → δ)
    (reads : ∀ {stop : Nat} {tokens' rest : List Token} {value : α},
      AgreeThrough k tokens tokens' → Reads (part stop (tokens'.drop k)) value rest →
        ∃ result, Reads (whole stop tokens') result rest ∧ bare' result = make (bare value))
    (fails : ∀ {stop : Nat} {tokens' : List Token} {error : ParseError},
      AgreeThrough k tokens tokens' → part stop (tokens'.drop k) = .error error →
        whole stop tokens' = .error error) : Settled bare' whole tokens := by
  refine settled.ofPart fails fun used tree all => ?_
  refine .read (k + used) (make tree) fun stop {tokens'} agree => ?_
  obtain ⟨value, partReads, rfl⟩ := all stop agree
  exact reads (agree.mono (Nat.le_add_right k used)) partReads

/-- The part is read behind `k` tokens, and a parenthesis that closes completes the whole. -/
theorem enclosed (settled : Settled bare part (tokens.drop k)) (make : β → δ)
    (reads : ∀ {stop : Nat} {tokens' rest : List Token} {value : α} {close : Token},
      AgreeThrough k tokens tokens' → Reads (part stop (tokens'.drop k)) value (close :: rest) →
        close.lexeme = .rightParen →
        ∃ result, Reads (whole stop tokens') result rest ∧ bare' result = make (bare value))
    (fails : ∀ {stop : Nat} {tokens' : List Token} {error : ParseError},
      AgreeThrough k tokens tokens' →
        (part stop (tokens'.drop k) = .error error ∨
          ∃ value rest, Reads (part stop (tokens'.drop k)) value rest ∧
            closing stop rest = .error error) →
        whole stop tokens' = .error error) : Settled bare' whole tokens := by
  refine settled.ofPart (fun agree failed => fails agree (Or.inl failed)) fun used tree all => ?_
  by_cases closes : nextClass (tokens.drop (k + used)) = .rightParen
  · refine .read (k + used + 1) (make tree) fun stop {tokens'} agree => ?_
    have agree' := agree.mono (Nat.le_succ (k + used))
    obtain ⟨value, partReads, rfl⟩ := all stop agree'
    have closes' := (agree'.nextClass_eq (Nat.le_refl _)).trans closes
    obtain ⟨close, left, closes⟩ := exists_drop_of_nextClass (l := .rightParen) rfl closes'
    rw [left] at partReads
    exact reads (agree'.mono (Nat.le_add_right k used)) partReads closes
  · refine .refused (k + used) (k + used)
      (.expected .rightParen (nextClass (tokens.drop (k + used))) 0) (fun _ => rfl)
      fun stop {tokens'} agree => ?_
    obtain ⟨value, partReads, -⟩ := all stop agree
    have next := agree.nextClass_eq (Nat.le_refl _)
    refine fails (agree.mono (Nat.le_add_right k used)) (Or.inr ⟨value, _, partReads, ?_⟩)
    rw [← next] at closes ⊢
    exact closing_eq_error.2 ⟨closes, rfl⟩

end Settled

/-!
### The left operand of a chain
-/

/-- What goes on from a formula does not depend on where the formula was read. -/
theorem reads_chainFrom_left {stop power : Nat} {left left' f : Formula} {tokens rest : List Token}
    (same : left.SameAs left') (reads : Reads (chainFrom stop power left tokens) f rest) :
    ∃ f', Reads (chainFrom stop power left' tokens) f' rest ∧ f'.SameAs f := by
  obtain ⟨bound, short⟩ : ∃ bound, tokens.length < bound := ⟨_, Nat.lt_succ_self _⟩
  induction bound generalizing tokens left left' with
  | zero => exact absurd short (Nat.not_lt_zero _)
  | succ bound ih =>
      rcases Nat.lt_or_ge power (nextClass tokens).bindingPower with tighter | loose
      · obtain ⟨sign, tail, c, rfl, joins⟩ := exists_connective_of_bindingPower tighter
        rw [nextClass_cons joins] at tighter
        obtain ⟨right, between, rightReads, reads⟩ :=
          (reads_chainFrom_connective joins tighter).1 reads
        have rightShort := rightReads.short
        rw [List.length_cons] at short
        obtain ⟨f', reads', same'⟩ := ih (same.binary .rfl) reads (by omega)
        exact ⟨f', (reads_chainFrom_connective joins tighter).2
          ⟨right, between, rightReads, reads'⟩, same'⟩
      · obtain ⟨rfl, rfl⟩ := (reads_chainFrom_stop loose).1 reads
        exact ⟨left', (reads_chainFrom_stop loose).2 ⟨rfl, rfl⟩, same.symm⟩

/-- What goes on from a formula is refused alike behind any other. -/
theorem chainFrom_left_eq_error {stop power : Nat} {left left' : Formula} {tokens : List Token}
    {error : ParseError} (failed : chainFrom stop power left tokens = .error error) :
    chainFrom stop power left' tokens = .error error := by
  obtain ⟨bound, short⟩ : ∃ bound, tokens.length < bound := ⟨_, Nat.lt_succ_self _⟩
  induction bound generalizing tokens left left' with
  | zero => exact absurd short (Nat.not_lt_zero _)
  | succ bound ih =>
      rcases Nat.lt_or_ge power (nextClass tokens).bindingPower with tighter | loose
      · obtain ⟨sign, tail, c, rfl, joins⟩ := exists_connective_of_bindingPower tighter
        rw [nextClass_cons joins] at tighter
        refine (chainFrom_connective_eq_error joins tighter).2 ?_
        refine ((chainFrom_connective_eq_error joins tighter).1 failed).imp_right ?_
        rintro ⟨right, rest, reads, failed⟩
        have rightShort := reads.short
        rw [List.length_cons] at short
        exact ⟨right, rest, reads, ih failed (by omega)⟩
      · exact absurd failed (chainFrom_stop_ne_error loose)

/-!
### The readers
-/

/-- From fewer than `bound` tokens, what every reader makes of them is settled. -/
structure SettledBelow (bound : Nat) : Prop where
  primary {tokens : List Token} :
    tokens.length < bound → Settled Formula.bare Parser.primary tokens
  chain {tokens : List Token} (power : Nat) :
    tokens.length < bound → Settled Formula.bare (Parser.chain · power) tokens
  terms {tokens : List Token} (owner : ArgumentOwner) :
    tokens.length < bound → Settled (List.map Term.bare) (Parser.terms · owner) tokens

namespace SettledBelow

variable {bound power : Nat} {tokens tail : List Token} {token : Token} {name : String}

theorem negation_step (below : SettledBelow bound) (shorter : tail.length < bound)
    (negates : token.lexeme = .negation) :
    Settled Formula.bare Parser.primary (token :: tail) := by
  refine Settled.behind (k := 1) (below.chain negationPower shorter) (.neg · .unknown) ?_ ?_
  · intro stop tokens' rest argument agree reads
    obtain ⟨token', tail', rfl, same⟩ := agree.exists_cons
    exact ⟨_, (reads_primary_negation (same.trans negates)).2 ⟨argument, reads, rfl⟩, rfl⟩
  · intro stop tokens' error agree failed
    obtain ⟨token', tail', rfl, same⟩ := agree.exists_cons
    exact (primary_negation_eq_error (same.trans negates)).2 failed

theorem group_step (below : SettledBelow bound) (shorter : tail.length < bound)
    (opens : token.lexeme = .leftParen) :
    Settled Formula.bare Parser.primary (token :: tail) := by
  refine Settled.enclosed (k := 1) (below.chain 0 shorter) (.group · .unknown) ?_ ?_
  · intro stop tokens' rest body close agree reads closes
    obtain ⟨token', tail', rfl, same⟩ := agree.exists_cons
    exact ⟨_, (reads_primary_leftParen (same.trans opens)).2 ⟨body, close, reads, closes, rfl⟩, rfl⟩
  · intro stop tokens' error agree failed
    obtain ⟨token', tail', rfl, same⟩ := agree.exists_cons
    exact (primary_leftParen_eq_error (same.trans opens)).2 failed

theorem quantifier_step {q : Quantifier} (below : SettledBelow bound)
    (shorter : tail.length < bound) (quantifies : token.lexeme = .quantifier q) :
    Settled Formula.bare Parser.primary (token :: tail) := by
  by_cases followed : nextClass tail = .var
  · obtain ⟨variableToken, name, after, rfl, named⟩ := exists_var_of_nextClass followed
    have shorter' : after.length < bound := Nat.lt_trans (Nat.lt_succ_self _) shorter
    refine Settled.behind (k := 2) (below.primary shorter')
      (.quantified q { name := name, span := .unknown } · .unknown) ?_ ?_
    · intro stop tokens' rest body agree reads
      obtain ⟨token', _, rfl, same⟩ := agree.exists_cons
      obtain ⟨variableToken', tail', rfl, same'⟩ := agree.behindFirst.exists_cons
      exact ⟨_, (reads_primary_quantifier (same.trans quantifies) (same'.trans named)).2
        ⟨body, reads, rfl⟩, rfl⟩
    · intro stop tokens' error agree failed
      obtain ⟨token', _, rfl, same⟩ := agree.exists_cons
      obtain ⟨variableToken', tail', rfl, same'⟩ := agree.behindFirst.exists_cons
      exact (primary_quantifier_eq_error (same.trans quantifies) (same'.trans named)).2 failed
  · refine .refused 1 1 (.missingVariable (nextClass tail) 0) (fun _ => rfl)
      fun stop {tokens'} agree => ?_
    obtain ⟨token', tail', rfl, same⟩ := agree.exists_cons
    have next : nextClass tail' = nextClass tail := agree.nextClass_eq (Nat.le_refl 1)
    rw [← next] at followed ⊢
    exact (primary_quantifier_alone_eq_error (same.trans quantifies) followed).2 rfl

/-- A name with arguments in parentheses is read as those are. -/
theorem arguments_step {opening : Token} (below : SettledBelow bound)
    (shorter : tail.length < bound) (owner : ArgumentOwner) (make : List Term → Formula)
    (filled : nextClass tail ≠ .rightParen)
    (reads : ∀ {stop : Nat} {token' opening' close : Token} {tail' rest : List Token}
      {args : List Term}, token'.lexeme = token.lexeme → opening'.lexeme = opening.lexeme →
        nextClass tail' ≠ .rightParen → Reads (Parser.terms stop owner tail') args (close :: rest) →
        close.lexeme = .rightParen →
        ∃ f, Reads (Parser.primary stop (token' :: opening' :: tail')) f rest ∧
          f.bare = make (args.map Term.bare))
    (fails : ∀ {stop : Nat} {token' opening' : Token} {tail' : List Token} {error : ParseError},
      token'.lexeme = token.lexeme → opening'.lexeme = opening.lexeme →
        nextClass tail' ≠ .rightParen →
        (Parser.terms stop owner tail' = .error error ∨
          ∃ args rest, Reads (Parser.terms stop owner tail') args rest ∧
            closing stop rest = .error error) →
        Parser.primary stop (token' :: opening' :: tail') = .error error) :
    Settled Formula.bare Parser.primary (token :: opening :: tail) := by
  refine Settled.enclosed (k := 2) (below.terms owner shorter) make ?_ ?_
  · intro stop tokens' rest args close agree argsRead closes
    obtain ⟨token', _, rfl, same⟩ := agree.exists_cons
    obtain ⟨opening', tail', rfl, same'⟩ := agree.behindFirst.exists_cons
    have filled' : nextClass tail' ≠ .rightParen :=
      (agree.nextClass_eq (Nat.le_refl 2)).trans_ne filled
    exact reads same same' filled' argsRead closes
  · intro stop tokens' error agree failed
    obtain ⟨token', _, rfl, same⟩ := agree.exists_cons
    obtain ⟨opening', tail', rfl, same'⟩ := agree.behindFirst.exists_cons
    have filled' : nextClass tail' ≠ .rightParen :=
      (agree.nextClass_eq (Nat.le_refl 2)).trans_ne filled
    exact fails same same' filled' failed

theorem predicate_step (below : SettledBelow bound) (shorter : tail.length < bound)
    (named : token.lexeme = .predicate name) :
    Settled Formula.bare Parser.primary (token :: tail) := by
  by_cases opened : nextClass tail = .leftParen
  · obtain ⟨opening, inside, rfl, opens⟩ := exists_of_nextClass (l := .leftParen) rfl opened
    by_cases closed : nextClass inside = .rightParen
    · obtain ⟨close, after, rfl, closes⟩ := exists_of_nextClass (l := .rightParen) rfl closed
      refine .read 3 (.predicate name [] .unknown) fun stop {tokens'} agree => ?_
      obtain ⟨token', _, rfl, same⟩ := agree.exists_cons
      obtain ⟨opening', _, rfl, same'⟩ := agree.behindFirst.exists_cons
      obtain ⟨close', tail', rfl, same''⟩ := agree.behindFirst.behindFirst.exists_cons
      exact ⟨_, (reads_primary_predicate_empty (same.trans named) (same'.trans opens)
        (same''.trans closes)).2 ⟨rfl, rfl⟩, rfl⟩
    · refine below.arguments_step (Nat.lt_trans (Nat.lt_succ_self _) shorter) .predicate
        (.predicate name · .unknown) closed ?_ ?_
      · intro stop token' opening' close tail' rest args same same' filled reads closes
        exact ⟨_, (reads_primary_predicate_arguments (same.trans named) (same'.trans opens)
          filled).2 ⟨args, close, reads, closes, rfl⟩, rfl⟩
      · intro stop token' opening' tail' error same same' filled failed
        exact (primary_predicate_arguments_eq_error (same.trans named) (same'.trans opens)
          filled).2 failed
  · refine .read 1 (.predicate name [] .unknown) fun stop {tokens'} agree => ?_
    obtain ⟨token', tail', rfl, same⟩ := agree.exists_cons
    have alone : nextClass tail' ≠ .leftParen :=
      (agree.nextClass_eq (Nat.le_refl 1)).trans_ne opened
    exact ⟨_, (reads_primary_predicate_alone (same.trans named) alone).2 ⟨rfl, rfl⟩, rfl⟩

theorem function_step (below : SettledBelow bound) (shorter : tail.length < bound)
    (named : token.lexeme = .function name) :
    Settled Formula.bare Parser.primary (token :: tail) := by
  by_cases opened : nextClass tail = .leftParen
  · obtain ⟨opening, inside, rfl, opens⟩ := exists_of_nextClass (l := .leftParen) rfl opened
    by_cases closed : nextClass inside = .rightParen
    · obtain ⟨close, after, rfl, closes⟩ := exists_of_nextClass (l := .rightParen) rfl closed
      -- The error is about the name, which is judged with both parentheses behind it.
      refine .refused 2 0 (.emptyArguments 0) nofun fun stop {tokens'} agree => ?_
      obtain ⟨token', _, rfl, same⟩ := agree.exists_cons
      obtain ⟨opening', _, rfl, same'⟩ := agree.behindFirst.exists_cons
      obtain ⟨close', tail', rfl, same''⟩ := agree.behindFirst.behindFirst.exists_cons
      exact (primary_function_empty_eq_error (same.trans named) (same'.trans opens)
        (same''.trans closes)).2 rfl
    · refine below.arguments_step (Nat.lt_trans (Nat.lt_succ_self _) shorter) .function
        (fun args => .term (.app name args .unknown)) closed ?_ ?_
      · intro stop token' opening' close tail' rest args same same' filled reads closes
        refine ⟨_, (reads_primary_function_arguments (same.trans named) (same'.trans opens)
          filled).2 ⟨args, close, reads, closes, rfl⟩, ?_⟩
        rw [Formula.bare, Term.bare, Term.bareList_eq_map]
      · intro stop token' opening' tail' error same same' filled failed
        exact (primary_function_arguments_eq_error (same.trans named) (same'.trans opens)
          filled).2 failed
  · refine .refused 1 1 (.expected .leftParen (nextClass tail) 0) (fun _ => rfl)
      fun stop {tokens'} agree => ?_
    obtain ⟨token', tail', rfl, same⟩ := agree.exists_cons
    have next : nextClass tail' = nextClass tail := agree.nextClass_eq (Nat.le_refl 1)
    rw [← next] at opened ⊢
    exact (primary_function_alone_eq_error (same.trans named) opened).2 rfl

/-- A primary formula, by the lexeme that it starts with. -/
theorem primary_step (below : SettledBelow bound) (short : tokens.length ≤ bound) :
    Settled Formula.bare Parser.primary tokens := by
  by_cases refused : (nextClass tokens).startsFormula = false
  · refine .refused 0 0 (.unexpected (nextClass tokens) 0) (fun _ => rfl)
      fun stop {tokens'} agree => ?_
    have next : nextClass tokens' = nextClass tokens := agree.nextClass_eq (Nat.le_refl 0)
    rw [← next] at refused ⊢
    exact (primary_eq_error refused).2 rfl
  cases tokens with
  | nil => exact absurd rfl refused
  | cons token tail =>
      have shorter : tail.length < bound := short
      cases named : token.lexeme with
      | var name =>
          refine .read 1 (.term (.var { name := name, span := .unknown }))
            fun stop {tokens'} agree => ?_
          obtain ⟨token', tail', rfl, same⟩ := agree.exists_cons
          exact ⟨_, (reads_primary_var (same.trans named)).2 ⟨rfl, rfl⟩, rfl⟩
      | literal value =>
          refine .read 1 (.literal value .unknown) fun stop {tokens'} agree => ?_
          obtain ⟨token', tail', rfl, same⟩ := agree.exists_cons
          exact ⟨_, (reads_primary_literal (same.trans named)).2 ⟨rfl, rfl⟩, rfl⟩
      | predicate name => exact below.predicate_step shorter named
      | function name => exact below.function_step shorter named
      | negation => exact below.negation_step shorter named
      | leftParen => exact below.group_step shorter named
      | quantifier q => exact below.quantifier_step shorter named
      | connective c | rightParen | comma => exact absurd (by rw [nextClass, named]; rfl) refused

/-- Where a connective follows that binds tighter than the power, its right operand is read, and
reading goes on behind the two joined. -/
theorem connective_step (left : Formula) {c : Connective} (below : SettledBelow bound)
    (short : tail.length < bound) (joins : token.lexeme = .connective c)
    (tighter : power < c.bindingPower)
    (goesOn : ∀ (joined : Formula) {between : List Token}, between.length < tail.length →
      Settled Formula.bare (Parser.chainFrom · power joined) between) :
    Settled Formula.bare (Parser.chainFrom · power left) (token :: tail) := by
  refine Settled.ofPart (k := 1) (below.chain (c.bindingPower - 1) short) ?_ fun used tree all => ?_
  · intro stop tokens' error agree failed
    obtain ⟨token', tail', rfl, same⟩ := agree.exists_cons
    exact (chainFrom_connective_eq_error (same.trans joins) tighter).2 (Or.inl failed)
  · obtain ⟨right, rightReads, rfl⟩ := all 0 (.refl _ _)
    refine (goesOn (.binary c left right .unknown) rightReads.short).behind id ?_ ?_
    · intro stop tokens' rest f agree reads
      obtain ⟨right', rightReads', alike⟩ := all stop agree
      obtain ⟨token', tail', rfl, same⟩ := agree.exists_cons
      obtain ⟨f', reads', alike'⟩ := reads_chainFrom_left (.binary .rfl (.symm alike)) reads
      exact ⟨f', (reads_chainFrom_connective (same.trans joins) tighter).2
        ⟨right', _, rightReads', reads'⟩, alike'⟩
    · intro stop tokens' error agree failed
      obtain ⟨right', rightReads', -⟩ := all stop agree
      obtain ⟨token', tail', rfl, same⟩ := agree.exists_cons
      exact (chainFrom_connective_eq_error (same.trans joins) tighter).2
        (Or.inr ⟨right', _, rightReads', chainFrom_left_eq_error failed⟩)

/-- The loop over connectives hands on fewer and fewer of its tokens. -/
theorem chainFrom_step (power : Nat) (left : Formula) (below : SettledBelow bound)
    (short : tokens.length ≤ bound) :
    Settled Formula.bare (Parser.chainFrom · power left) tokens := by
  induction size : tokens.length using Nat.strongRecOn generalizing tokens left with
  | ind size ih =>
      rcases Nat.lt_or_ge power (nextClass tokens).bindingPower with tighter | loose
      · obtain ⟨sign, tail, c, rfl, joins⟩ := exists_connective_of_bindingPower tighter
        rw [nextClass_cons joins] at tighter
        rw [List.length_cons] at size short
        refine below.connective_step left short joins tighter fun joined between shorter => ?_
        exact ih between.length (by omega) joined (by omega) rfl
      · refine .read 0 left.bare fun stop {tokens'} agree => ?_
        have next : nextClass tokens' = nextClass tokens := agree.nextClass_eq (Nat.le_refl 0)
        rw [← next] at loose
        exact ⟨left, (reads_chainFrom_stop loose).2 ⟨rfl, rfl⟩, rfl⟩

theorem chain_step (power : Nat) (below : SettledBelow bound) (short : tokens.length ≤ bound) :
    Settled Formula.bare (Parser.chain · power) tokens := by
  refine Settled.ofPart (k := 0) (below.primary_step short) ?_ fun used tree all => ?_
  · intro stop tokens' error agree failed
    exact chain_eq_error.2 (Or.inl failed)
  simp only [Nat.zero_add] at all
  obtain ⟨first, firstReads, rfl⟩ := all 0 (.refl _ _)
  have firstShort := Nat.le_trans (Nat.le_of_lt firstReads.short) short
  refine (below.chainFrom_step power first firstShort).behind id ?_ ?_
  · intro stop tokens' rest f agree reads
    obtain ⟨first', firstReads', alike⟩ := all stop agree
    obtain ⟨f', reads', alike'⟩ := reads_chainFrom_left (.symm alike) reads
    exact ⟨f', reads_chain.2 ⟨first', _, firstReads', reads'⟩, alike'⟩
  · intro stop tokens' error agree failed
    obtain ⟨first', firstReads', -⟩ := all stop agree
    exact chain_eq_error.2 (Or.inr ⟨first', _, firstReads', chainFrom_left_eq_error failed⟩)

/-- Where a comma follows a first argument, the others are read behind it. -/
theorem comma_step {owner : ArgumentOwner} {t : Term} {used : Nat} (below : SettledBelow bound)
    (short : (tokens.drop used).length ≤ bound)
    (separated : nextClass (tokens.drop used) = .comma)
    (read : ∀ (stop : Nat) {tokens' : List Token}, AgreeThrough used tokens tokens' →
      ∃ t', Reads (Parser.chain stop 0 tokens') (.term t') (tokens'.drop used) ∧
        t'.bare = t.bare) :
    Settled (List.map Term.bare) (Parser.terms · owner) tokens := by
  have separates {tokens' : List Token} (agree : AgreeThrough (used + 1) tokens tokens') :
      ∃ comma, tokens'.drop used = comma :: tokens'.drop (used + 1) ∧ comma.lexeme = .comma :=
    exists_drop_of_nextClass rfl ((agree.nextClass_eq (Nat.le_succ used)).trans separated)
  have shorter : (tokens.drop (used + 1)).length < bound := by
    obtain ⟨comma, split, -⟩ := separates (.refl _ tokens)
    rw [split, List.length_cons] at short
    exact short
  refine (below.terms owner shorter).behind (t.bare :: ·) ?_ ?_
  · intro stop tokens' rest others agree reads
    obtain ⟨t', reads', same⟩ := read stop (agree.mono (Nat.le_succ used))
    obtain ⟨comma, split, isComma⟩ := separates agree
    exact ⟨t' :: others, reads_terms.2 ⟨t', _, reads',
      Or.inr ⟨comma, _, others, split, isComma, reads, rfl⟩⟩, congrArg (· :: _) same⟩
  · intro stop tokens' error agree failed
    obtain ⟨t', reads', -⟩ := read stop (agree.mono (Nat.le_succ used))
    obtain ⟨comma, split, isComma⟩ := separates agree
    exact terms_eq_error.2
      (Or.inr ⟨_, _, reads', Or.inr ⟨t', comma, _, rfl, split, isComma, failed⟩⟩)

/-- Arguments are settled as their first formula is, and then, if that is a term with a comma behind
it, as the others are. -/
theorem terms_step {owner : ArgumentOwner} (below : SettledBelow bound)
    (short : tokens.length ≤ bound) :
    Settled (List.map Term.bare) (Parser.terms · owner) tokens := by
  refine Settled.ofPart (k := 0) (below.chain_step 0 short) ?_ fun used tree all => ?_
  · intro stop tokens' error agree failed
    exact terms_eq_error.2 (Or.inl failed)
  simp only [Nat.zero_add] at all
  obtain ⟨first, firstReads, rfl⟩ := all 0 (.refl _ _)
  by_cases isTerm : ∃ t, first = .term t
  case neg =>
    -- The whole argument is read before it is refused, and the error is about where it starts.
    refine .refused used 0 (.invalidArgument owner first.kind 0) nofun
      fun stop {tokens'} agree => ?_
    obtain ⟨first', reads', alike⟩ := all stop agree
    have noTerm : ∀ t, first' ≠ .term t := by
      rintro t rfl
      obtain ⟨t', given, -⟩ := Formula.SameAs.exists_term (.symm alike)
      exact isTerm ⟨t', given⟩
    rw [← Formula.SameAs.kind_eq alike]
    exact terms_eq_error.2 (Or.inr ⟨first', _, reads', Or.inl ⟨noTerm, rfl⟩⟩)
  obtain ⟨t, rfl⟩ := isTerm
  have read (stop : Nat) {tokens' : List Token} (agree : AgreeThrough used tokens tokens') :
      ∃ t', Reads (Parser.chain stop 0 tokens') (.term t') (tokens'.drop used) ∧
        t'.bare = t.bare := by
    obtain ⟨first', reads', alike⟩ := all stop agree
    obtain ⟨t', rfl, same⟩ := Formula.SameAs.exists_term alike
    exact ⟨t', reads', same⟩
  by_cases separated : nextClass (tokens.drop used) = .comma
  · exact below.comma_step (Nat.le_trans (Nat.le_of_lt firstReads.short) short) separated read
  · refine .read used [t.bare] fun stop {tokens'} agree => ?_
    obtain ⟨t', reads', same⟩ := read stop agree
    rw [← agree.nextClass_eq (Nat.le_refl used)] at separated
    exact ⟨[t'], reads_terms.2 ⟨t', _, reads', Or.inl ⟨separated, rfl, rfl⟩⟩,
      congrArg (· :: []) same⟩

end SettledBelow

theorem settledBelow (bound : Nat) : SettledBelow bound := by
  induction bound with
  | zero =>
      constructor
      · intro _ short
        exact absurd short (Nat.not_lt_zero _)
      · intro _ _ short
        exact absurd short (Nat.not_lt_zero _)
      · intro _ _ short
        exact absurd short (Nat.not_lt_zero _)
  | succ bound below =>
      exact
        { primary := fun short => below.primary_step (Nat.le_of_lt_succ short)
          chain := fun power short => below.chain_step power (Nat.le_of_lt_succ short)
          terms := fun _ short => below.terms_step (Nat.le_of_lt_succ short) }

end Parser

end PredicateLogic
