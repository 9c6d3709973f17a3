/-
Module: PredicateLogic.Proofs.RoundTrip
Purpose: Reading back what was printed.
  A formula that was read is written with the lexemes of its text, less the empty argument lists
  (`Spells.lexemes_eq`), so its names are words and its canonical text is scanned into lexemes that
  spell it again.
Main exports: Lexeme.withoutEmptyArguments, Spells.lexemes_eq, Formula.Printable,
  Formula.Printable.parses, Formula.printable_of_parse, Formula.parse_text,
  Formula.scan_text_of_parse
-/
import Mathlib.Control.Monad.Basic
import PredicateLogic.Proofs.ParserGrammar
import PredicateLogic.Proofs.WrittenTrees

namespace PredicateLogic

/-!
### The lexemes of a text that was read

Printing leaves out the parentheses behind a predicate symbol without arguments, and nothing else.
-/

/-- The lexemes without the parentheses that enclose nothing behind a predicate symbol. -/
def Lexeme.withoutEmptyArguments : List Lexeme → List Lexeme
  | [] => []
  | .predicate name :: .leftParen :: .rightParen :: rest =>
      .predicate name :: withoutEmptyArguments rest
  | l :: rest => l :: withoutEmptyArguments rest

namespace Lexeme

variable {l : Lexeme} {ls : List Lexeme}

/-- A lexeme stays, and so does what follows it unless it is a predicate symbol in front of an empty
argument list. -/
theorem withoutEmptyArguments_cons
    (kept : ∀ name rest, l = .predicate name → ls ≠ .leftParen :: .rightParen :: rest) :
    withoutEmptyArguments (l :: ls) = l :: withoutEmptyArguments ls :=
  withoutEmptyArguments.eq_3 l ls kept

/-- Nothing is added. -/
theorem mem_of_mem_withoutEmptyArguments (member : l ∈ withoutEmptyArguments ls) : l ∈ ls := by
  fun_induction withoutEmptyArguments ls with
  | case1 => exact member
  | case2 name rest ih =>
      rcases List.mem_cons.1 member with rfl | member
      · exact List.mem_cons_self
      · simp [ih member]
  | case3 l' rest _ ih =>
      rcases List.mem_cons.1 member with rfl | member
      · exact List.mem_cons_self
      · exact List.mem_cons_of_mem _ (ih member)

/-- The lexeme is a parenthesis, around arguments or around a group. -/
def isParenthesis (l : Lexeme) : Bool :=
  l == .leftParen || l == .rightParen

/-- Whatever is no parenthesis stays, in its order. -/
theorem filter_withoutEmptyArguments (ls : List Lexeme) :
    (withoutEmptyArguments ls).filter (!·.isParenthesis) = ls.filter (!·.isParenthesis) := by
  fun_induction withoutEmptyArguments ls with
  | case1 => rfl
  | case2 name rest ih => simpa [isParenthesis] using ih
  | case3 l rest _ ih => simp only [List.filter_cons, ih]

end Lexeme

/-- The lexemes that a phrase is written with. -/
def Phrase.lexemes : Phrase → List Lexeme
  | .term t => t.lexemes
  | .arguments args => Term.argumentLexemes args
  | .primary f | .chain f | .formula f => f.lexemes

theorem Term.argumentLexemes_cons {t : Term} {ts : List Term} (nonempty : ts ≠ []) :
    argumentLexemes (t :: ts) = t.lexemes ++ .comma :: argumentLexemes ts := by
  cases ts with
  | nil => exact absurd rfl nonempty
  | cons next rest => rfl

open Lexeme

namespace Phrase

/-- The tokens are written as the phrase, whatever comes behind them but an opening parenthesis,
which would belong to a predicate symbol at their end. -/
def PrintedFrom (tokens : List Token) (phrase : Phrase) : Prop :=
  ∀ rest : List Lexeme, rest.head? ≠ some .leftParen →
    withoutEmptyArguments (tokens.map Token.lexeme ++ rest) =
      phrase.lexemes ++ withoutEmptyArguments rest

/-- A phrase in parentheses is written in parentheses. -/
theorem PrintedFrom.enclosed {tokens : List Token} {phrase : Phrase} {opening closing : Token}
    (inside : phrase.PrintedFrom tokens) (opens : opening.lexeme = .leftParen)
    (closes : closing.lexeme = .rightParen) (rest : List Lexeme) :
    withoutEmptyArguments ((opening :: tokens ++ [closing]).map Token.lexeme ++ rest) =
      .leftParen :: phrase.lexemes ++ [.rightParen] ++ withoutEmptyArguments rest := by
  have body := inside (.rightParen :: rest) (by simp)
  rw [withoutEmptyArguments_cons (by simp)] at body
  simp only [List.cons_append, List.map_cons, List.map_append, List.map_nil, List.append_assoc,
    List.nil_append, opens, closes]
  rw [withoutEmptyArguments_cons (by simp), body]

/-- A name with arguments is written as the name, with the arguments in parentheses.  There is at
least one argument, so the parentheses are kept. -/
theorem PrintedFrom.application {inner : List Token} {args : List Term}
    {head opening closing : Token} (inside : (arguments args).PrintedFrom inner)
    (spelled : Spells inner (.arguments args)) (opens : opening.lexeme = .leftParen)
    (closes : closing.lexeme = .rightParen) (rest : List Lexeme) :
    withoutEmptyArguments ((head :: opening :: inner ++ [closing]).map Token.lexeme ++ rest) =
      head.lexeme :: .leftParen :: Term.argumentLexemes args ++ [.rightParen] ++
        withoutEmptyArguments rest := by
  have kept : ∀ name others, head.lexeme = .predicate name →
      (opening :: inner ++ [closing]).map Token.lexeme ++ rest ≠
        .leftParen :: .rightParen :: others := by
    intro name others _ same
    cases inner with
    | nil => exact spelled.ne_nil rfl
    | cons first others =>
        have closesFirst : first.lexeme = .rightParen := by simp_all
        exact spelled.filled [] (Parser.nextClass_cons closesFirst _)
  have body := inside.enclosed opens closes rest
  simp only [List.cons_append, List.map_cons] at body kept ⊢
  rw [withoutEmptyArguments_cons kept, body]
  rfl

/-- Two phrases with a symbol between them are written so. -/
theorem PrintedFrom.between {left right : List Token} {first second : Phrase} {sign : Token}
    (before : first.PrintedFrom left) (after : second.PrintedFrom right)
    (notPredicate : ∀ name, sign.lexeme ≠ .predicate name) (notOpening : sign.lexeme ≠ .leftParen)
    (rest : List Lexeme) (ends : rest.head? ≠ some .leftParen) :
    withoutEmptyArguments ((left ++ sign :: right).map Token.lexeme ++ rest) =
      first.lexemes ++ sign.lexeme :: second.lexemes ++ withoutEmptyArguments rest := by
  have follows := before (sign.lexeme :: (right.map Token.lexeme ++ rest))
    (by simpa using notOpening)
  rw [withoutEmptyArguments_cons (fun name _ named => absurd named (notPredicate name)),
    after rest ends] at follows
  simpa using follows

end Phrase

namespace Spells

/-- A formula is written with the lexemes that spelled it, less the empty argument lists. -/
theorem lexemes_eq {tokens : List Token} {phrase : Phrase} (spelled : Spells tokens phrase) :
    phrase.PrintedFrom tokens := by
  induction spelled with
  | var named =>
      intro rest _
      simp [named, Phrase.lexemes, Term.lexemes, withoutEmptyArguments_cons]
  | app named opens arguments closes ih =>
      intro rest _
      rw [ih.application arguments opens closes, named]
      rfl
  | argument term ih => exact ih
  | moreArguments term separates others ih ihs =>
      intro rest ends
      rw [ih.between ihs (by simp [separates]) (by simp [separates]) rest ends, separates]
      simp only [Phrase.lexemes]
      rw [Term.argumentLexemes_cons others.written.1]
  | ofTerm term ih => exact ih
  | literal valued =>
      intro rest _
      simp [valued, Phrase.lexemes, Formula.lexemes, withoutEmptyArguments_cons]
  | proposition named =>
      intro rest ends
      have kept : ∀ others, rest ≠ .leftParen :: .rightParen :: others := by
        rintro others rfl
        exact ends rfl
      simp [named, Phrase.lexemes, Formula.lexemes, withoutEmptyArguments_cons, kept]
  | emptyArguments named opens closes =>
      intro rest _
      simp [named, opens, closes, Phrase.lexemes, Formula.lexemes, withoutEmptyArguments]
  | @predicate head opening closing name inner args named opens arguments closes ih =>
      intro rest _
      rw [ih.application arguments opens closes, named]
      cases args with
      | nil => exact absurd rfl arguments.written.1
      | cons t ts => rfl
  | neg negates argument ih =>
      intro rest ends
      rw [List.map_cons, List.cons_append, negates, withoutEmptyArguments_cons (by simp),
        ih rest ends]
      rfl
  | group opens body closes ih =>
      intro rest _
      exact ih.enclosed opens closes rest
  | quantified quantifies named body ih =>
      intro rest ends
      rw [List.map_cons, List.map_cons, List.cons_append, List.cons_append, quantifies, named,
        withoutEmptyArguments_cons (by simp), withoutEmptyArguments_cons (by simp), ih rest ends]
      rfl
  | ofPrimary primary ih => exact ih
  | joined first joins monotone second ih ihs =>
      intro rest ends
      rw [ih.between ihs (by simp [joins]) (by simp [joins]) rest ends, joins]
      rfl
  | ofChain chain ih => exact ih
  | implies premise joins conclusion ih ihs =>
      intro rest ends
      rw [ih.between ihs (by simp [joins]) (by simp [joins]) rest ends, joins]
      rfl

end Spells

/-!
### Printing and parsing

The canonical text shows no ranges, so it is a text of the tree up to the places where its nodes
stand.
-/

/-- A term without its ranges has the same text. -/
theorem Term.text_bare (t : Term) : t.bare.text = t.text := by
  induction t with
  | var v => rfl
  | app name args span ih =>
      have same : args.map (text ∘ bare) = args.map text := List.map_congr_left ih
      simp only [bare, bareList_eq_map, text, texts_eq_map, List.map_map, same]

namespace Formula

/-- A formula without its ranges has the same text. -/
theorem text_bare (f : Formula) : f.bare.text = f.text := by
  induction f with
  | empty span => rfl
  | term t => exact t.text_bare
  | literal value span => rfl
  | predicate name args span =>
      have same : (args.map Term.bare).map Term.text = args.map Term.text := by
        rw [List.map_map]
        exact List.map_congr_left fun t _ => t.text_bare
      cases args with
      | nil => rfl
      | cons t ts =>
          simp only [bare, text, List.map_cons] at same ⊢
          rw [same]
  | neg argument span ih => simp only [bare, text, ih]
  | binary c left right span ihLeft ihRight => simp only [bare, text, ihLeft, ihRight]
  | group body span ih => simp only [bare, text, ih]
  | quantified q bound body span ih =>
      simp only [bare, text, ih]
      rfl

theorem SameAs.text_eq {f g : Formula} (same : f.SameAs g) : f.text = g.text := by
  rw [← f.text_bare, ← g.text_bare, same]

/-- Parsing gives back what printing the formula wrote: the tree has the shape of one that was read,
and its names are words. -/
structure Printable (f : Formula) : Prop where
  shape : (∃ span, f = .empty span) ∨ f.Written 0
  spellable : ∀ l ∈ f.lexemes, l.Spellable

/-- The canonical text of a printable formula is parsed into the formula. -/
theorem Printable.parses {f : Formula} (printable : f.Printable) :
    ∃ g, parse f.text = .ok g ∧ g.SameAs f := by
  obtain ⟨tokens, scanned, same⟩ := f.scan_text printable.spellable
  rcases printable.shape with ⟨span, rfl⟩ | written
  · cases List.map_eq_nil_iff.1 same
    exact ⟨_, parse_eq_ok_iff.2 ⟨[], scanned, Or.inl ⟨rfl, rfl⟩⟩, rfl⟩
  · obtain ⟨g, spelled, sameTree⟩ := written.spelled same
    exact ⟨g, parse_eq_ok_iff.2 ⟨tokens, scanned, Or.inr spelled⟩, sameTree⟩

/-- A formula is written with the lexemes of the text it was parsed from, less the empty argument
lists. -/
theorem lexemes_of_parse {text : String} {f : Formula} (parsed : parse text = .ok f) :
    ∃ tokens, Token.scan text = .ok tokens ∧
      f.lexemes = Lexeme.withoutEmptyArguments (tokens.map Token.lexeme) := by
  obtain ⟨tokens, scanned, empty | spelled⟩ := parse_eq_ok_iff.1 parsed
  · obtain ⟨rfl, rfl⟩ := empty
    exact ⟨[], scanned, rfl⟩
  · have written := spelled.lexemes_eq [] (by simp)
    rw [List.append_nil, Lexeme.withoutEmptyArguments, List.append_nil] at written
    exact ⟨tokens, scanned, written.symm⟩

/-- A formula that was parsed is printable. -/
theorem printable_of_parse {text : String} {f : Formula} (parsed : parse text = .ok f) :
    f.Printable := by
  constructor
  · obtain ⟨tokens, scanned, empty | spelled⟩ := parse_eq_ok_iff.1 parsed
    · exact Or.inl ⟨_, empty.2⟩
    · exact Or.inr (spelled.written.mono (Nat.zero_le 39))
  · intro l member
    obtain ⟨tokens, scanned, written⟩ := lexemes_of_parse parsed
    have read : l ∈ tokens.map Token.lexeme :=
      Lexeme.mem_of_mem_withoutEmptyArguments (written ▸ member)
    obtain ⟨token, inText, rfl⟩ := List.mem_map.1 read
    exact Token.spellable_of_scanFrom scanned token inText

/-- Whatever text a formula was parsed from, parsing its canonical text gives the formula again, up
to the places where its nodes stand. -/
theorem parse_text {text : String} {f : Formula} (parsed : parse text = .ok f) :
    ∃ g, parse f.text = .ok g ∧ g.SameAs f :=
  (printable_of_parse parsed).parses

/-- The tree of a text whose blanks, glyphs and empty argument list are printed otherwise. -/
def unevenlyWritten : Formula :=
  .binary .implication
    (.quantified .universal { name := "x", span := .between 1 2 }
      (.group
        (.binary .disjunction
          (.predicate "P"
            [.var { name := "x", span := .between 6 7 },
              .app "f" [.var { name := "y", span := .between 11 12 }] (.between 8 14)]
            (.between 4 15))
          (.predicate "Q" [] (.between 18 22)) (.between 4 22))
        (.between 3 23))
      (.between 0 23))
    (.neg (.predicate "R" [] (.between 27 28)) (.between 25 28)) (.between 0 28)

theorem parse_text_unevenlyWritten :
    parse "∀x (P(x,f( y )) ∨ Q( ))→ ~ R" = .ok unevenlyWritten ∧
      ∃ g, parse unevenlyWritten.text = .ok g ∧ g.SameAs unevenlyWritten := by
  have parsed : parse "∀x (P(x,f( y )) ∨ Q( ))→ ~ R" = .ok unevenlyWritten := by decide +kernel
  exact ⟨parsed, parse_text parsed⟩

/-- The canonical text is scanned into the lexemes of the text that was parsed, in their order, less
the empty argument lists: nothing but parentheses is missing, and nothing is added.  The canonical
text is its own canonical text. -/
theorem scan_text_of_parse {text : String} {f : Formula} (parsed : parse text = .ok f) :
    ∃ tokens printed, Token.scan text = .ok tokens ∧ Token.scan f.text = .ok printed ∧
      printed.map Token.lexeme = Lexeme.withoutEmptyArguments (tokens.map Token.lexeme) ∧
      (printed.map Token.lexeme).filter (!·.isParenthesis) =
        (tokens.map Token.lexeme).filter (!·.isParenthesis) ∧
      ∃ g, parse f.text = .ok g ∧ g.text = f.text := by
  have printable : f.Printable := printable_of_parse parsed
  obtain ⟨tokens, scanned, written⟩ := lexemes_of_parse parsed
  obtain ⟨printed, rescanned, same⟩ := f.scan_text printable.spellable
  obtain ⟨g, reparsed, sameTree⟩ := printable.parses
  refine ⟨tokens, printed, scanned, rescanned, same.trans written, ?_, g, reparsed,
    sameTree.text_eq⟩
  rw [same, written, Lexeme.filter_withoutEmptyArguments]

theorem scan_text_of_parse_unevenlyWritten :
    parse "∀x (P(x,f( y )) ∨ Q( ))→ ~ R" = .ok unevenlyWritten ∧
      ∃ tokens printed, Token.scan "∀x (P(x,f( y )) ∨ Q( ))→ ~ R" = .ok tokens ∧
        Token.scan "A.x (P(x, f(y)) | Q) -> !R" = .ok printed ∧
        printed.map Token.lexeme = Lexeme.withoutEmptyArguments (tokens.map Token.lexeme) ∧
        (printed.map Token.lexeme).filter (!·.isParenthesis) =
          (tokens.map Token.lexeme).filter (!·.isParenthesis) ∧
        ∃ g, parse "A.x (P(x, f(y)) | Q) -> !R" = .ok g ∧
          g.text = "A.x (P(x, f(y)) | Q) -> !R" := by
  have parsed : parse "∀x (P(x,f( y )) ∨ Q( ))→ ~ R" = .ok unevenlyWritten := by decide +kernel
  have printed : unevenlyWritten.text = "A.x (P(x, f(y)) | Q) -> !R" := by decide +kernel
  exact ⟨parsed, printed ▸ scan_text_of_parse parsed⟩

end Formula

end PredicateLogic
