/-
Module: PredicateLogic.Proofs.TokenBoundaries
Purpose: Where the scanner stands when it looks for the next token.
  It never stands inside a word, behind a hyphen, or between the letter of a quantifier and its
  point (`Boundary`).  This is the invariant of the scan: it holds at the start of a text, behind a
  blank and behind a token, so what a character has in front of it is known wherever a token starts.
Main exports: Token.before?, Token.QuantifierLetterAt, Token.Boundary, Lexeme.read?_cases,
  Token.Boundary.start, Token.Boundary.blank, Token.Boundary.read
-/
import PredicateLogic.Proofs.ScannedText
import PredicateLogic.Proofs.Scanning

namespace PredicateLogic

/-!
### The first token of a text
-/

namespace Lexeme

variable {c d : Char} {rest : List Char} {l : Lexeme} {more : Nat}

/-- A token is a pair of characters, a word or a single symbol. -/
theorem read?_cases (read : read? c rest = some (l, more)) :
    (∃ d tail, rest = d :: tail ∧ ofPair? c d = some l ∧ more = 1) ∨
      (c.isAlpha = true ∧ (∀ d, rest.head? = some d → ofPair? c d = none) ∧
        more = (rest.takeWhile Char.isAlpha).length ∧
        l = ofWord c (rest.takeWhile Char.isAlpha)
          ((rest.dropWhile Char.isAlpha).head? == some '(')) ∨
      (c.isAlpha = false ∧ ofSymbol? c = some l ∧ more = 0) := by
  unfold read? at read
  split at read
  case h_1 paired =>
    cases read
    obtain ⟨d, head, spelled⟩ := Option.bind_eq_some_iff.1 paired
    obtain ⟨tail, rfl⟩ := List.head?_eq_some_iff.1 head
    exact Or.inl ⟨d, tail, rfl, spelled, rfl⟩
  case h_2 unpaired =>
    split at read
    case isTrue letter =>
      cases read
      exact Or.inr (Or.inl ⟨letter, Option.bind_eq_none_iff.1 unpaired, rfl, rfl⟩)
    case isFalse notLetter =>
      obtain ⟨l', spelled, same⟩ := Option.map_eq_some_iff.1 read
      cases same
      exact Or.inr (Or.inr ⟨Bool.eq_false_iff.2 notLetter, spelled, rfl⟩)

/-- No token starts where there is neither a pair, nor a letter, nor a symbol. -/
theorem read?_eq_none_iff :
    read? c rest = none ↔
      (∀ d, rest.head? = some d → ofPair? c d = none) ∧ c.isAlpha = false ∧ ofSymbol? c = none := by
  unfold read?
  split
  case h_1 paired =>
    obtain ⟨d, head, spelled⟩ := Option.bind_eq_some_iff.1 paired
    simp only [reduceCtorEq, false_iff]
    rintro ⟨unpaired, -⟩
    cases (unpaired d head).symm.trans spelled
  case h_2 unpaired =>
    rw [and_iff_right (Option.bind_eq_none_iff.1 unpaired)]
    cases letter : c.isAlpha <;> simp

/-- Only three pairs of characters are tokens. -/
theorem ofPair?_cases (spelled : ofPair? c d = some l) :
    (c = 'A' ∧ d = '.' ∧ l = .quantifier .universal) ∨
      (c = 'E' ∧ d = '.' ∧ l = .quantifier .existential) ∨
      (c = '-' ∧ d = '>' ∧ l = .connective .implication) := by
  unfold ofPair? at spelled
  split at spelled <;> cases spelled <;> simp

end Lexeme

namespace Token

/-!
### Neighbours
-/

/-- The character in front of a place, if there is one. -/
def before? (text : List Char) : Nat → Option Char
  | 0 => none
  | i + 1 => text[i]?

/-- An `A` or `E` stands there with no letter in front of it: the start of a quantifier, if a point
follows. -/
def QuantifierLetterAt (text : List Char) (i : Nat) : Prop :=
  (text[i]? = some 'A' ∨ text[i]? = some 'E') ∧
    ∀ c, before? text i = some c → c.isAlpha = false

/-- A token can start at the place, as far as the character in front of it is concerned. -/
structure Boundary (text : List Char) (position : Nat) : Prop where
  /-- No word goes on there. -/
  parted : ∀ c d, before? text position = some c → text[position]? = some d →
    c.isAlpha = false ∨ d.isAlpha = false
  /-- No arrow has begun in front of it. -/
  noHyphen : before? text position ≠ some '-'
  /-- No quantifier has begun in front of it. -/
  noPoint : text[position]? = some '.' → ∀ i, position = i + 1 → ¬ QuantifierLetterAt text i

variable {text rest : List Char} {position : Nat} {c : Char} {l : Lexeme} {more : Nat}

/-- The characters of the rest of a text are those of the text further on. -/
theorem getElem?_of_drop (here : text.drop position = rest) (k : Nat) :
    text[position + k]? = rest[k]? := by
  rw [← here, List.getElem?_drop]

/-- The elements with a property that a list starts with have it, and the next one has not. -/
theorem getElem?_takeWhile {α : Type} {p : α → Bool} {xs : List α} {k : Nat} {x : α}
    (here : xs[k]? = some x) :
    (k < (xs.takeWhile p).length → p x = true) ∧ (k = (xs.takeWhile p).length → p x = false) := by
  induction xs generalizing k with
  | nil => cases here
  | cons first xs ih =>
      cases holds : p first with
      | false =>
          simp only [List.takeWhile_cons, holds]
          refine ⟨nofun, ?_⟩
          rintro rfl
          cases here
          exact holds
      | true =>
          simp only [List.takeWhile_cons, holds, if_true, List.length_cons]
          cases k with
          | zero =>
              cases here
              exact ⟨fun _ => holds, nofun⟩
          | succ k =>
              obtain ⟨inside, next⟩ := ih here
              exact ⟨fun shorter => inside (Nat.lt_of_succ_lt_succ shorter),
                fun same => next (Nat.succ.inj same)⟩

/-- What ends the elements with a property at the start of a list is what follows them. -/
theorem getElem?_length_takeWhile {α : Type} (p : α → Bool) (xs : List α) :
    xs[(xs.takeWhile p).length]? = (xs.dropWhile p).head? := by
  induction xs with
  | nil => rfl
  | cons first xs ih => cases holds : p first <;> simp [holds, ih]

/-- The letters that the rest of a text starts with stand one behind the other in the text. -/
theorem exists_letter {k : Nat} (here : text.drop position = rest)
    (inside : k < (rest.takeWhile Char.isAlpha).length) :
    ∃ d, text[position + k]? = some d ∧ d.isAlpha = true := by
  have bound := Nat.lt_of_lt_of_le inside (List.takeWhile_prefix _).length_le
  have found : rest[k]? = some rest[k] := List.getElem?_eq_getElem bound
  exact ⟨rest[k], (getElem?_of_drop here k).trans found, (getElem?_takeWhile found).1 inside⟩

theorem drop_succ_of_drop (here : text.drop position = c :: rest) :
    text.drop (position + 1) = rest := by
  rw [← List.drop_drop, here, List.drop_one, List.tail_cons]

namespace Boundary

/-- No letter stands in front of a letter that a token can start with. -/
theorem alone (boundary : Boundary text position) (here : text[position]? = some c)
    (letter : c.isAlpha = true) : ∀ d, before? text position = some d → d.isAlpha = false :=
  fun d inFront => (boundary.parted d c inFront here).resolve_right (by simp [letter])

/-- The start of a text has nothing in front of it. -/
theorem start (text : List Char) : Boundary text 0 where
  parted := nofun
  noHyphen := nofun
  noPoint := nofun

/-- A character that is no letter and no hyphen ends all that it stands behind. -/
theorem behind {c : Char} (here : text[position]? = some c) (notLetter : c.isAlpha = false)
    (notHyphen : c ≠ '-') : Boundary text (position + 1) where
  parted := by
    intro d e inFront _
    cases here.symm.trans inFront
    exact Or.inl notLetter
  noHyphen := by
    intro inFront
    cases here.symm.trans inFront
    exact notHyphen rfl
  noPoint := by
    rintro - i same ⟨isLetter, -⟩
    cases same
    rcases isLetter with isA | isE
    · cases here.symm.trans isA
      cases notLetter
    · cases here.symm.trans isE
      cases notLetter

theorem blank (here : text[position]? = some c) (blank : isBlank c = true) :
    Boundary text (position + 1) := by
  apply behind here (Scans.isAlpha_eq_false blank)
  rintro rfl
  cases blank

/-- A word takes in all letters, and an `A` or `E` that a point follows is no word by itself. -/
theorem word (here : text.drop position = c :: rest) (letter : c.isAlpha = true)
    (unpaired : ∀ d, rest.head? = some d → Lexeme.ofPair? c d = none)
    (whole : more = (rest.takeWhile Char.isAlpha).length) :
    Boundary text (position + 1 + more) := by
  have length : ((c :: rest).takeWhile Char.isAlpha).length = more + 1 := by
    rw [List.takeWhile_cons_of_pos letter, List.length_cons, whole]
  have last : text[position + more]? = (c :: rest)[more]? := getElem?_of_drop here more
  have next : text[position + 1 + more]? = (c :: rest)[more + 1]? := by
    rw [Nat.add_right_comm, Nat.add_assoc, getElem?_of_drop here]
  refine ⟨?_, ?_, ?_⟩
  · intro d e _ follows
    exact Or.inr ((getElem?_takeWhile (next.symm.trans follows)).2 length.symm)
  · intro hyphen
    obtain ⟨d, inFront, isLetter⟩ := exists_letter (k := more) here (by omega)
    rw [Nat.add_right_comm, before?, inFront] at hyphen
    cases hyphen
    cases isLetter
  · rintro point i same ⟨isLetter, alone⟩
    obtain rfl : i = position + more := by omega
    rw [last] at isLetter
    cases more with
    | zero =>
        have follows : rest.head? = some '.' := by
          rw [List.head?_eq_getElem?]
          exact next.symm.trans point
        rcases isLetter with isA | isE
        · cases isA
          cases unpaired '.' follows
        · cases isE
          cases unpaired '.' follows
    | succ k =>
        obtain ⟨d, inFront, isLetter⟩ := exists_letter (k := k) here (by omega)
        cases (alone d inFront).symm.trans isLetter

/-- Behind a token another one can start. -/
theorem read (here : text.drop position = c :: rest)
    (read : Lexeme.read? c rest = some (l, more)) : Boundary text (position + 1 + more) := by
  rcases Lexeme.read?_cases read with
    ⟨d, tail, rfl, paired, rfl⟩ | ⟨letter, unpaired, rfl, -⟩ | ⟨notLetter, symbolic, rfl⟩
  · have last : text[position + 1]? = some d := getElem?_of_drop here 1
    rcases Lexeme.ofPair?_cases paired with ⟨-, rfl, -⟩ | ⟨-, rfl, -⟩ | ⟨-, rfl, -⟩
    · exact behind last (by decide) (by decide)
    · exact behind last (by decide) (by decide)
    · exact behind last (by decide) (by decide)
  · exact word here letter unpaired rfl
  · apply behind (getElem?_of_drop here 0) notLetter
    rintro rfl
    cases symbolic

end Boundary

end Token

end PredicateLogic
