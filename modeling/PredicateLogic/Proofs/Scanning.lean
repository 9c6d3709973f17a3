/-
Module: PredicateLogic.Proofs.Scanning
Purpose: What the scanner makes of a text that is put together from spellings.
  `Scans` leaves out where the text starts, so that the text behind a spelling can be looked at by
  itself.  A name is read back where no letter, point or parenthesis follows it, and a function
  symbol in front of its parenthesis.
Main exports: Lexeme.Spellable, Token.spellable_of_scanFrom, Scans, Lexeme.EndsBefore, Scans.blank,
  Scans.symbol, Scans.pair, Scans.word, Scans.name
-/
import PredicateLogic.Token.Scanner

namespace PredicateLogic

/-!
### Lexemes that a text can spell

Only names are in question: a name is a word of letters that spells neither a truth value nor a name
of another class.
-/

/-- Some text spells the lexeme. -/
def Lexeme.Spellable (l : Lexeme) : Prop :=
  l.name? = none ∨ ∃ first others opens,
    (∀ c ∈ first :: others, c.isAlpha = true) ∧ Lexeme.ofWord first others opens = l

namespace Lexeme

/-- A spellable name is a word.  The parenthesis that opens behind it, or does not, matters to
variables and function symbols only. -/
theorem Spellable.word {l : Lexeme} {name : String} (spellable : l.Spellable)
    (named : l.name? = some name) :
    ∃ first others, name = String.ofList (first :: others) ∧
      (∀ c ∈ first :: others, c.isAlpha = true) ∧
      ∀ opens, (l.tokenClass = .var → opens = false) → (l.tokenClass = .function → opens = true) →
        ofWord first others opens = l := by
  rcases spellable with symbolic | ⟨first, others, opens', letters, spelled⟩
  · cases symbolic.symm.trans named
  · refine ⟨first, others, ?_, letters, ?_⟩
    · unfold ofWord at spelled
      grind [name?]
    · intro opens ofVar ofFunction
      unfold ofWord at spelled ⊢
      grind [tokenClass]

theorem name?_ofPair? {c d : Char} {l : Lexeme} (spelled : ofPair? c d = some l) :
    l.name? = none := by
  unfold ofPair? at spelled
  split at spelled <;> cases spelled <;> rfl

theorem name?_ofSymbol? {c : Char} {l : Lexeme} (spelled : ofSymbol? c = some l) :
    l.name? = none := by
  unfold ofSymbol? at spelled
  split at spelled <;> cases spelled <;> rfl

/-- What is read at the start of a text is spelled there. -/
theorem spellable_of_read? {c : Char} {rest : List Char} {l : Lexeme} {more : Nat}
    (read : read? c rest = some (l, more)) : l.Spellable := by
  unfold read? at read
  split at read
  case h_1 paired =>
    cases read
    obtain ⟨d, -, spelled⟩ := Option.bind_eq_some_iff.1 paired
    exact Or.inl (name?_ofPair? spelled)
  case h_2 =>
    split at read
    case isTrue letter =>
      cases read
      refine Or.inr ⟨c, _, _, ?_, rfl⟩
      intro d member
      rcases List.mem_cons.1 member with rfl | member
      · exact letter
      · exact List.all_eq_true.1 List.all_takeWhile d member
    case isFalse =>
      obtain ⟨l', spelled, same⟩ := Option.map_eq_some_iff.1 read
      cases same
      exact Or.inl (name?_ofSymbol? spelled)

end Lexeme

/-- The lexemes of a text that is scanned are spellable. -/
theorem Token.spellable_of_scanFrom {position : Nat} {text : List Char} {tokens : List Token}
    (scanned : scanFrom position text = .ok tokens) : ∀ token ∈ tokens, token.lexeme.Spellable := by
  fun_induction scanFrom position text generalizing tokens with
  | case1 position =>
      cases scanned
      simp
  | case2 position c rest blank ih => exact ih scanned
  | case3 position c rest notBlank refused => cases scanned
  | case4 position c rest notBlank l more read stop =>
      rename_i ih
      intro token member
      cases scannedRest : scanFrom stop (rest.drop more) with
      | error illegal =>
          rw [scannedRest] at scanned
          cases scanned
      | ok others =>
          rw [scannedRest] at scanned
          cases scanned
          rcases List.mem_cons.1 member with rfl | member
          · exact Lexeme.spellable_of_read? read
          · exact ih scannedRest token member

/-!
### Reading spellings back
-/

/-- Wherever the text stands, scanning it gives these lexemes. -/
def Scans (text : List Char) (lexemes : List Lexeme) : Prop :=
  ∀ position, ∃ tokens, Token.scanFrom position text = .ok tokens ∧
    tokens.map Token.lexeme = lexemes

/-- The lexeme can be told from what comes behind its name. -/
def Lexeme.EndsBefore (l : Lexeme) (rest : List Char) : Prop :=
  (∀ c, rest.head? = some c → c.isAlpha = false ∧ c ≠ '.') ∧
    (l.tokenClass = .var → rest.head? ≠ some '(') ∧
    (l.tokenClass = .function → rest.head? = some '(')

namespace Scans

variable {c d : Char} {rest : List Char} {l : Lexeme} {ls : List Lexeme}

theorem nil : Scans [] [] := by
  intro position
  exact ⟨[], by simp [Token.scanFrom], rfl⟩

/-- A blank is skipped. -/
theorem blank (scans : Scans rest ls) : Scans (' ' :: rest) ls := by
  intro position
  obtain ⟨tokens, scanned, same⟩ := scans (position + 1)
  refine ⟨tokens, ?_, same⟩
  rw [Token.scanFrom, if_pos (by decide)]
  exact scanned

/-- What is read at the start comes first. -/
theorem read (more : Nat) (visible : Token.isBlank c = false)
    (read : Lexeme.read? c rest = some (l, more)) (scans : Scans (rest.drop more) ls) :
    Scans (c :: rest) (l :: ls) := by
  intro position
  obtain ⟨tokens, scanned, same⟩ := scans (position + 1 + more)
  refine ⟨{ lexeme := l, start := position, stop := position + 1 + more } :: tokens, ?_, ?_⟩
  · rw [Token.scanFrom, if_neg (by simp [visible]), read]
    simp [scanned, bind, Except.bind, pure, Except.pure]
  · rw [List.map_cons, same]

/-- Only an `A`, an `E` or a hyphen starts a pair. -/
theorem ofPair?_eq_none (notA : c ≠ 'A') (notE : c ≠ 'E') (notHyphen : c ≠ '-') :
    Lexeme.ofPair? c d = none := by
  unfold Lexeme.ofPair?
  split <;> simp_all

/-- A letter in front of anything but a point starts no pair. -/
theorem ofPair?_eq_none_of_isAlpha (letter : c.isAlpha = true) (notPoint : d ≠ '.') :
    Lexeme.ofPair? c d = none := by
  unfold Lexeme.ofPair?
  split
  · exact absurd rfl notPoint
  · exact absurd rfl notPoint
  · cases letter
  · rfl

/-- No letter is a blank. -/
theorem isBlank_eq_false (letter : c.isAlpha = true) : Token.isBlank c = false := by
  rw [← Bool.not_eq_true]
  intro blank
  simp only [Token.isBlank, Bool.or_eq_true, beq_iff_eq, or_assoc] at blank
  rcases blank with rfl | rfl | rfl | rfl | rfl | rfl <;> cases letter

/-- No blank is a letter. -/
theorem isAlpha_eq_false (blank : Token.isBlank c = true) : c.isAlpha = false := by
  rw [← Bool.not_eq_true]
  intro letter
  cases (isBlank_eq_false letter).symm.trans blank

/-- A symbol of one character. -/
theorem symbol (spelled : Lexeme.ofSymbol? c = some l) (notLetter : c.isAlpha = false)
    (scans : Scans rest ls) : Scans (c :: rest) (l :: ls) := by
  have noPair : rest.head?.bind (Lexeme.ofPair? c) = none := by
    rw [Option.bind_eq_none_iff]
    intro d _
    apply ofPair?_eq_none
    · rintro rfl
      cases notLetter
    · rintro rfl
      cases notLetter
    · rintro rfl
      cases spelled
  apply read 0 _ _ scans
  · unfold Lexeme.ofSymbol? at spelled
    split at spelled <;> first | rfl | cases spelled
  · simp [Lexeme.read?, noPair, notLetter, spelled]

/-- A symbol of two characters. -/
theorem pair (spelled : Lexeme.ofPair? c d = some l) (scans : Scans rest ls) :
    Scans (c :: d :: rest) (l :: ls) := by
  refine read 1 ?_ ?_ scans
  · unfold Lexeme.ofPair? at spelled
    split at spelled <;> first | rfl | cases spelled
  · simp [Lexeme.read?, spelled]

/-- A word, in front of a text where it ends. -/
theorem word {first : Char} {others : List Char}
    (letters : ∀ c ∈ first :: others, c.isAlpha = true)
    (stops : ∀ c, rest.head? = some c → c.isAlpha = false ∧ c ≠ '.') (scans : Scans rest ls) :
    Scans (first :: others ++ rest)
      (Lexeme.ofWord first others (rest.head? == some '(') :: ls) := by
  have letter : first.isAlpha = true := letters first List.mem_cons_self
  have letters' : ∀ d ∈ others, d.isAlpha = true := fun d member =>
    letters d (List.mem_cons_of_mem _ member)
  have taken : (others ++ rest).takeWhile Char.isAlpha = others := by
    rw [List.takeWhile_append_of_pos letters']
    cases rest with
    | nil => simp
    | cons d rest => simp [(stops d rfl).1]
  have dropped : (others ++ rest).dropWhile Char.isAlpha = rest := by
    rw [List.dropWhile_append_of_pos letters']
    cases rest with
    | nil => simp
    | cons d rest => simp [(stops d rfl).1]
  have noPair : (others ++ rest).head?.bind (Lexeme.ofPair? first) = none := by
    rw [Option.bind_eq_none_iff]
    intro d head
    apply ofPair?_eq_none_of_isAlpha letter
    cases others with
    | nil => exact (stops d head).2
    | cons next others =>
        cases head
        rintro rfl
        cases letters' '.' List.mem_cons_self
  apply read others.length (isBlank_eq_false letter)
  · rw [List.append_eq, Lexeme.read?, noPair]
    simp only [letter, if_true, taken, dropped]
  · simpa using scans

/-- A name, in front of a text that it can be told from. -/
theorem name {name : String} (spellable : l.Spellable) (named : l.name? = some name)
    (ends : l.EndsBefore rest) (scans : Scans rest ls) :
    Scans (name.toList ++ rest) (l :: ls) := by
  obtain ⟨first, others, rfl, letters, spelled⟩ := spellable.word named
  obtain ⟨stops, ofVar, ofFunction⟩ := ends
  have scansWord := word letters stops scans
  rw [spelled] at scansWord
  · rw [String.toList_ofList]
    exact scansWord
  · intro isVar
    simpa using ofVar isVar
  · intro isFunction
    simpa using ofFunction isFunction

end Scans

end PredicateLogic
