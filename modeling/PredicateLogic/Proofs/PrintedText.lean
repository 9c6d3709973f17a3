/-
Module: PredicateLogic.Proofs.PrintedText
Purpose: Scanning the canonical text of a formula.
  The text of any tree, readable as a formula or not, is scanned into the lexemes that its nodes
  stand for, as long as its names are words.
Main exports: Term.lexemes, Formula.lexemes, Delimited, Term.scans_text, Formula.scans_text
-/
import PredicateLogic.Proofs.Scanning
import PredicateLogic.Formula.Text

namespace PredicateLogic

open Text

/-!
### The lexemes of a tree
-/

mutual

/-- The lexemes that a term is written with. -/
def Term.lexemes : Term → List Lexeme
  | .var v => [.var v.name]
  | .app name args _ => .function name :: .leftParen :: Term.argumentLexemes args ++ [.rightParen]

/-- The lexemes that a list of arguments is written with. -/
def Term.argumentLexemes : List Term → List Lexeme
  | [] => []
  | [t] => t.lexemes
  | t :: next :: rest => t.lexemes ++ .comma :: Term.argumentLexemes (next :: rest)

end

/-- The lexemes that a formula is written with. -/
def Formula.lexemes : Formula → List Lexeme
  | .empty _ => []
  | .term t => t.lexemes
  | .literal value _ => [.literal value]
  | .predicate name [] _ => [.predicate name]
  | .predicate name args _ =>
      .predicate name :: .leftParen :: Term.argumentLexemes args ++ [.rightParen]
  | .neg argument _ => .negation :: argument.lexemes
  | .binary c left right _ => left.lexemes ++ .connective c :: right.lexemes
  | .group body _ => .leftParen :: body.lexemes ++ [.rightParen]
  | .quantified q bound body _ => .quantifier q :: .var bound.name :: body.lexemes

/-!
### Printing and scanning

A printed name stands in front of a blank, a comma, a closing parenthesis or the end of the text,
and a function symbol in front of its parenthesis.
-/

/-- The text is empty or starts with something that ends a name without calling it. -/
def Delimited (rest : List Char) : Prop :=
  ∀ c, rest.head? = some c → c = ' ' ∨ c = ',' ∨ c = ')'

theorem delimited_cons {c : Char} {rest : List Char} (ends : c = ' ' ∨ c = ',' ∨ c = ')') :
    Delimited (c :: rest) := by
  intro d head
  cases head
  exact ends

namespace Lexeme

variable {l : Lexeme} {rest : List Char}

theorem endsBefore_of_delimited (delimited : Delimited rest)
    (notFunction : l.tokenClass ≠ .function) : l.EndsBefore rest := by
  refine ⟨?_, ?_, fun isFunction => absurd isFunction notFunction⟩
  · intro c head
    rcases delimited c head with rfl | rfl | rfl <;> decide
  · intro _ head
    rcases delimited '(' head with same | same | same <;> cases same

theorem endsBefore_leftParen (notVar : l.tokenClass ≠ .var) : l.EndsBefore ('(' :: rest) := by
  refine ⟨?_, fun isVar => absurd isVar notVar, fun _ => rfl⟩
  intro c head
  cases head
  decide

end Lexeme

/-- In front of a delimited text, the term's own text is scanned into its lexemes. -/
def Term.PrintsBack (t : Term) : Prop :=
  (∀ l ∈ t.lexemes, l.Spellable) → ∀ rest ls, Delimited rest → Scans rest ls →
    Scans (t.text.toList ++ rest) (t.lexemes ++ ls)

namespace Term

variable {args : List Term} {rest : List Char} {ls : List Lexeme}

/-- Arguments are scanned into their lexemes if each of them is. -/
theorem scans_arguments (each : ∀ t ∈ args, t.PrintsBack)
    (spellable : ∀ l ∈ argumentLexemes args, l.Spellable) (delimited : Delimited rest)
    (scans : Scans rest ls) :
    Scans ((commaSeparated (args.map text)).toList ++ rest) (argumentLexemes args ++ ls) := by
  unfold commaSeparated
  induction args with
  | nil => exact scans
  | cons t ts ih =>
      have first : t.PrintsBack := each t List.mem_cons_self
      cases ts with
      | nil => exact first spellable rest ls delimited scans
      | cons next ts =>
          simp only [argumentLexemes, List.mem_append, List.mem_cons] at spellable
          have others := ih (fun u member => each u (List.mem_cons_of_mem t member))
            (fun l member => spellable l (Or.inr (Or.inr member)))
          have comma := Scans.symbol (c := ',') rfl rfl (Scans.blank others)
          have whole := first (fun l member => spellable l (Or.inl member)) _ _
            (delimited_cons (Or.inr (Or.inl rfl))) comma
          simpa [separated, argumentLexemes] using whole

/-- A name with arguments in parentheses behind it. -/
theorem scans_application {l : Lexeme} {name : String} (each : ∀ t ∈ args, t.PrintsBack)
    (named : l.name? = some name) (notVar : l.tokenClass ≠ .var)
    (spellable : ∀ l' ∈ l :: .leftParen :: argumentLexemes args ++ [.rightParen], l'.Spellable)
    (scans : Scans rest ls) :
    Scans ((name ++ "(" ++ commaSeparated (args.map text) ++ ")").toList ++ rest)
      (l :: .leftParen :: argumentLexemes args ++ [.rightParen] ++ ls) := by
  have closing : Scans (')' :: rest) (.rightParen :: ls) := Scans.symbol rfl rfl scans
  have inside := scans_arguments each (fun l' member => spellable l' (by simp [member]))
    (delimited_cons (Or.inr (Or.inr rfl))) closing
  have opening := Scans.symbol (c := '(') rfl rfl inside
  have whole := Scans.name (spellable l (by simp)) named
    (Lexeme.endsBefore_leftParen notVar) opening
  simpa using whole

/-- The text of a term is scanned into its lexemes. -/
theorem scans_text (t : Term) : t.PrintsBack := by
  induction t with
  | var v =>
      intro spellable rest ls delimited scans
      exact Scans.name (spellable _ List.mem_cons_self) rfl
        (Lexeme.endsBefore_of_delimited delimited (by simp [Lexeme.tokenClass])) scans
  | app name args span ih =>
      intro spellable rest ls _ scans
      rw [text, texts_eq_map]
      exact scans_application ih rfl (by simp [Lexeme.tokenClass]) spellable scans

end Term

namespace Formula

theorem scans_connective (c : Connective) {rest : List Char} {ls : List Lexeme}
    (scans : Scans rest ls) : Scans (c.symbol.toList ++ rest) (.connective c :: ls) := by
  cases c with
  | conjunction | disjunction => exact Scans.symbol rfl rfl scans
  | implication => exact Scans.pair rfl scans

theorem scans_quantifier (q : Quantifier) {rest : List Char} {ls : List Lexeme}
    (scans : Scans rest ls) : Scans (q.symbol.toList ++ rest) (.quantifier q :: ls) := by
  cases q with
  | universal | existential => exact Scans.pair rfl scans

/-- A truth value is written as a word that no parenthesis behind it changes. -/
theorem scans_literalText (value : Bool) {rest : List Char} {ls : List Lexeme}
    (delimited : Delimited rest) (scans : Scans rest ls) :
    Scans ((literalText value).toList ++ rest) (.literal value :: ls) := by
  have stops := (Lexeme.endsBefore_of_delimited (l := .literal value) delimited
    (by simp [Lexeme.tokenClass])).1
  cases value with
  | true =>
      have letters : ∀ c ∈ ['T', 'r', 'u', 'e'], c.isAlpha = true :=
        List.all_eq_true.1 rfl
      have whole := Scans.word letters stops scans
      rw [Lexeme.ofWord, if_pos (by decide)] at whole
      exact whole
  | false =>
      have letters : ∀ c ∈ ['F', 'a', 'l', 's', 'e'], c.isAlpha = true :=
        List.all_eq_true.1 rfl
      have whole := Scans.word letters stops scans
      rw [Lexeme.ofWord, if_neg (by decide), if_pos (by decide)] at whole
      exact whole

/-- The text of a formula is scanned into its lexemes, in front of any text that delimits it. -/
theorem scans_text (f : Formula) (spellable : ∀ l ∈ f.lexemes, l.Spellable) {rest : List Char}
    {ls : List Lexeme} (delimited : Delimited rest) (scans : Scans rest ls) :
    Scans (f.text.toList ++ rest) (f.lexemes ++ ls) := by
  induction f generalizing rest ls with
  | empty span => exact scans
  | term t => exact t.scans_text spellable rest ls delimited scans
  | literal value span =>
      exact scans_literalText value delimited scans
  | predicate name args span =>
      cases args with
      | nil =>
          exact Scans.name (spellable _ List.mem_cons_self) rfl
            (Lexeme.endsBefore_of_delimited delimited (by simp [Lexeme.tokenClass])) scans
      | cons t ts =>
          exact Term.scans_application (fun u _ => u.scans_text) rfl (by simp [Lexeme.tokenClass])
            spellable scans
  | neg argument span ih =>
      simp only [lexemes, List.mem_cons] at spellable
      have inside := ih (fun l member => spellable l (Or.inr member)) delimited scans
      have whole := Scans.symbol (c := '!') rfl rfl inside
      simpa [text, lexemes, Operator.symbol] using whole
  | binary c left right span ihLeft ihRight =>
      simp only [lexemes, List.mem_append, List.mem_cons] at spellable
      have after := ihRight (fun l member => spellable l (Or.inr (Or.inr member))) delimited scans
      have whole := ihLeft (fun l member => spellable l (Or.inl member))
        (delimited_cons (Or.inl rfl)) (scans_connective c after.blank).blank
      simpa [text, lexemes] using whole
  | group body span ih =>
      simp only [lexemes, List.mem_cons, List.mem_append] at spellable
      have closing : Scans (')' :: rest) (.rightParen :: ls) := Scans.symbol rfl rfl scans
      have inside := ih (fun l member => spellable l (Or.inl (Or.inr member)))
        (delimited_cons (Or.inr (Or.inr rfl))) closing
      have whole := Scans.symbol (c := '(') rfl rfl inside
      simpa [text, lexemes] using whole
  | quantified q bound body span ih =>
      simp only [lexemes, List.mem_cons] at spellable
      have inside := ih (fun l member => spellable l (Or.inr (Or.inr member))) delimited scans
      have name := Scans.name (spellable _ (Or.inr (Or.inl rfl))) rfl
        (Lexeme.endsBefore_of_delimited (delimited_cons (Or.inl rfl)) (by simp [Lexeme.tokenClass]))
        inside.blank
      have whole := scans_quantifier q name
      simpa [text, lexemes] using whole

/-- The canonical text of a formula whose names are words is scanned into its lexemes. -/
theorem scan_text (f : Formula) (spellable : ∀ l ∈ f.lexemes, l.Spellable) :
    ∃ tokens, Token.scan f.text = .ok tokens ∧ tokens.map Token.lexeme = f.lexemes := by
  have whole := f.scans_text spellable (fun _ head => by cases head) Scans.nil 0
  simpa [Token.scan] using whole

end Formula

end PredicateLogic
