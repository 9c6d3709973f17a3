/-
Module: PredicateLogic.Proofs.IllegalCharacters
Purpose: Scanning fails exactly at the first character that cannot stand where it does.
  A character is judged by itself and, for a hyphen, an arrow head and a point, by its neighbours
  (`Token.LegalAt`).  Where no token starts, the character is illegal, as the scanner stands behind
  no half of a token; and all characters of a token are legal.  So a scan never passes an illegal
  character and never stops in front of one.
Main exports: Token.signs, Token.LegalAt, Token.IllegalAt, Token.Boundary.illegalAt,
  Token.Boundary.legal_of_read, Token.judges_scanFrom, Token.scan_refuses_first_illegal
-/
import Mathlib.Order.Bounds.Basic
import PredicateLogic.Proofs.TokenBoundaries

namespace PredicateLogic

namespace Token

/-!
### Legal characters
-/

/-- The characters that are tokens by themselves. -/
def signs : List Char :=
  ['0', '1', '&', '|', '!', '~', '(', ')', ',', '∧', '∨', '¬', '→', '∀', '∃', '⊤', '⊥']

/-- The character can stand at this place of the text.  A hyphen and an arrow head need each other,
a point needs the letter of a quantifier, and all others may stand anywhere or nowhere. -/
def LegalAt (text : List Char) (i : Nat) (c : Char) : Prop :=
  match c with
  | '-' => text[i + 1]? = some '>'
  | '>' => before? text i = some '-'
  | '.' => ∃ j, i = j + 1 ∧ QuantifierLetterAt text j
  | c => c.isAlpha = true ∨ isBlank c = true ∨ c ∈ signs

/-- There is a character at this place of the text, and it cannot stand there. -/
def IllegalAt (text : List Char) (i : Nat) : Prop :=
  ∃ c, text[i]? = some c ∧ ¬ LegalAt text i c

variable {text rest : List Char} {position i : Nat} {c : Char} {l : Lexeme} {more : Nat}

/-- A letter, a blank or a sign is legal everywhere. -/
theorem legalAt_of_anywhere (anywhere : c.isAlpha = true ∨ isBlank c = true ∨ c ∈ signs) :
    LegalAt text i c := by
  unfold LegalAt
  split
  · exact absurd anywhere (by decide)
  · exact absurd anywhere (by decide)
  · exact absurd anywhere (by decide)
  · exact anywhere

/-- The characters that are tokens by themselves are the signs. -/
theorem ofSymbol?_eq_none_iff : Lexeme.ofSymbol? c = none ↔ c ∉ signs := by
  unfold Lexeme.ofSymbol?
  split
  case h_18 => simp_all [signs]
  all_goals exact iff_of_false nofun (by decide)

/-- Only what is found at a place can be illegal there. -/
theorem not_illegalAt_iff (here : text[i]? = some c) : ¬ IllegalAt text i ↔ LegalAt text i c := by
  simp [IllegalAt, here]

namespace Boundary

/-- Where no token starts, the character is illegal. -/
theorem illegalAt (boundary : Boundary text position) (here : text.drop position = c :: rest)
    (notBlank : isBlank c = false) (refused : Lexeme.read? c rest = none) :
    IllegalAt text position := by
  obtain ⟨unpaired, notLetter, notSign⟩ := Lexeme.read?_eq_none_iff.1 refused
  have first : text[position]? = some c := getElem?_of_drop here 0
  refine ⟨c, first, ?_⟩
  unfold LegalAt
  split
  · intro head
    rw [getElem?_of_drop here 1] at head
    have next : rest.head? = some '>' := by
      rw [List.head?_eq_getElem?]
      exact head
    cases unpaired '>' next
  · exact boundary.noHyphen
  · rintro ⟨j, same, isQuantifier⟩
    exact boundary.noPoint first j same isQuantifier
  · simp [notLetter, notBlank, ofSymbol?_eq_none_iff.1 notSign]

/-- The characters that are a token only together are legal. -/
theorem legal_of_pair {d : Char} (boundary : Boundary text position)
    (first : text[position]? = some c) (second : text[position + 1]? = some d)
    (paired : Lexeme.ofPair? c d = some l) :
    LegalAt text position c ∧ LegalAt text (position + 1) d := by
  rcases Lexeme.ofPair?_cases paired with ⟨rfl, rfl, -⟩ | ⟨rfl, rfl, -⟩ | ⟨rfl, rfl, -⟩
  · exact ⟨legalAt_of_anywhere (by decide),
      position, rfl, Or.inl first, boundary.alone first rfl⟩
  · exact ⟨legalAt_of_anywhere (by decide),
      position, rfl, Or.inr first, boundary.alone first rfl⟩
  · exact ⟨second, first⟩

/-- The characters of a token are legal. -/
theorem legal_of_read (boundary : Boundary text position) (here : text.drop position = c :: rest)
    (read : Lexeme.read? c rest = some (l, more)) :
    ∀ i, position ≤ i → i < position + 1 + more → ¬ IllegalAt text i := by
  have first : text[position]? = some c := getElem?_of_drop here 0
  intro i starts ends
  rcases Lexeme.read?_cases read with
    ⟨d, tail, rfl, paired, rfl⟩ | ⟨letter, -, whole, -⟩ | ⟨-, symbolic, rfl⟩
  · have second : text[position + 1]? = some d := getElem?_of_drop here 1
    obtain ⟨legal, legal'⟩ := boundary.legal_of_pair first second paired
    obtain rfl | rfl : i = position ∨ i = position + 1 := by omega
    · exact (not_illegalAt_iff first).2 legal
    · exact (not_illegalAt_iff second).2 legal'
  · obtain ⟨k, rfl⟩ := Nat.exists_eq_add_of_le starts
    have shorter : k < ((c :: rest).takeWhile Char.isAlpha).length := by
      rw [List.takeWhile_cons_of_pos letter, List.length_cons, ← whole]
      omega
    obtain ⟨d, inside, letter⟩ := exists_letter here shorter
    exact (not_illegalAt_iff inside).2 (legalAt_of_anywhere (Or.inl letter))
  · obtain rfl : i = position := by omega
    have isSign : c ∈ signs := by
      by_contra notSign
      cases (ofSymbol?_eq_none_iff.2 notSign).symm.trans symbolic
    exact (not_illegalAt_iff first).2 (legalAt_of_anywhere (Or.inr (Or.inr isSign)))

end Boundary

/-!
### The whole scan
-/

/-- From the place on, the outcome of a scan is right about the characters: it is the first illegal
one, or there is none. -/
def Judges (text : List Char) (position : Nat) : Except IllegalCharacter (List Token) → Prop
  | .ok _ => ∀ i, position ≤ i → ¬ IllegalAt text i
  | .error illegal => text[illegal.position]? = some illegal.character ∧
      IllegalAt text illegal.position ∧
      ∀ i, position ≤ i → i < illegal.position → ¬ IllegalAt text i

/-- Legal characters in front of a place do not matter to what is found from there on. -/
theorem Judges.earlier {stop : Nat} {outcome : Except IllegalCharacter (List Token)}
    (judges : Judges text stop outcome)
    (legal : ∀ i, position ≤ i → i < stop → ¬ IllegalAt text i) : Judges text position outcome := by
  have split {i : Nat} (starts : position ≤ i) (further : stop ≤ i → ¬ IllegalAt text i) :
      ¬ IllegalAt text i := by
    rcases Nat.lt_or_ge i stop with inFront | behind
    · exact legal i starts inFront
    · exact further behind
  cases outcome with
  | ok tokens => exact fun i starts => split starts (judges i)
  | error illegal =>
      obtain ⟨found, isIllegal, first⟩ := judges
      exact ⟨found, isIllegal, fun i starts ends => split starts fun behind => first i behind ends⟩

/-- From a place where a token can start, the scan is right about the characters. -/
theorem judges_scanFrom (boundary : Boundary text position) (here : text.drop position = rest) :
    Judges text position (scanFrom position rest) := by
  fun_induction scanFrom position rest with
  | case1 position =>
      rintro i behind ⟨c, inside, -⟩
      obtain ⟨k, rfl⟩ := Nat.exists_eq_add_of_le behind
      cases (getElem?_of_drop here k).symm.trans inside
  | case2 position c rest blank ih =>
      have first : text[position]? = some c := getElem?_of_drop here 0
      apply (ih (Boundary.blank first blank) (drop_succ_of_drop here)).earlier
      intro i starts ends
      obtain rfl : i = position := by omega
      exact (not_illegalAt_iff first).2 (legalAt_of_anywhere (Or.inr (Or.inl blank)))
  | case3 position c rest notBlank refused =>
      have isIllegal := boundary.illegalAt here (Bool.eq_false_iff.2 notBlank) refused
      exact ⟨getElem?_of_drop here 0, isIllegal,
        fun i starts ends => absurd ends (Nat.not_lt.2 starts)⟩
  | case4 position c rest notBlank l more read stop =>
      rename_i ih
      have further : text.drop stop = rest.drop more := by
        rw [← drop_succ_of_drop here, List.drop_drop]
      have judges := (ih (Boundary.read here read) further).earlier
        (boundary.legal_of_read here read)
      cases scanned : scanFrom stop (rest.drop more) with
      | error illegal =>
          rw [scanned] at judges
          exact judges
      | ok others =>
          rw [scanned] at judges
          exact judges

namespace Judges

variable {outcome : Except IllegalCharacter (List Token)}

/-- A scan of a whole text fails exactly if a character is illegal. -/
theorem exists_error_iff (judges : Judges text 0 outcome) :
    (∃ illegal, outcome = .error illegal) ↔ ∃ i, IllegalAt text i := by
  cases outcome with
  | ok tokens =>
      refine iff_of_false nofun ?_
      rintro ⟨i, isIllegal⟩
      exact judges i (Nat.zero_le i) isIllegal
  | error found => exact iff_of_true ⟨found, rfl⟩ ⟨found.position, judges.2.1⟩

/-- A scan of a whole text that fails reports the first illegal character. -/
theorem eq_error_iff (judges : Judges text 0 outcome) (illegal : IllegalCharacter) :
    outcome = .error illegal ↔ IsLeast {i | IllegalAt text i} illegal.position ∧
      text[illegal.position]? = some illegal.character := by
  have least {found : IllegalCharacter} (judges : Judges text 0 (.error found)) :
      IsLeast {i | IllegalAt text i} found.position := by
    refine ⟨judges.2.1, fun i isIllegal => ?_⟩
    by_contra inFront
    exact judges.2.2 i (Nat.zero_le i) (Nat.not_le.1 inFront) isIllegal
  constructor
  · rintro rfl
    exact ⟨least judges, judges.1⟩
  · rintro ⟨least', character⟩
    obtain ⟨found, rfl⟩ := judges.exists_error_iff.2 ⟨illegal.position, least'.1⟩
    have position : found.position = illegal.position := (least judges).unique least'
    have character' := judges.1
    rw [position, character] at character'
    cases found
    cases illegal
    cases position
    cases character'
    rfl

end Judges

/-- Scanning fails exactly where a character is illegal, with the first such character. -/
theorem scan_refuses_first_illegal (text : String) :
    ((∃ illegal, scan text = .error illegal) ↔ ∃ i, IllegalAt text.toList i) ∧
      ∀ illegal, scan text = .error illegal ↔
        IsLeast {i | IllegalAt text.toList i} illegal.position ∧
          text.toList[illegal.position]? = some illegal.character := by
  have judges : Judges text.toList 0 (scan text) := judges_scanFrom (Boundary.start _) rfl
  exact ⟨judges.exists_error_iff, judges.eq_error_iff⟩

end Token

end PredicateLogic
