/-
Module: PredicateLogic.Proofs.BlankSeparation
Purpose: Blanks cut a text into parts that are scanned each by itself.
  No token reaches into a blank, and none is read differently because a blank follows it
  (`Lexeme.read?_append_blank`).  So the scan of a text goes on behind a blank as it would at the
  start of another text, only further on, and it does not get there where the first part is refused.
Main exports: Token.shift, IllegalCharacter.shift, Token.shiftScan, Token.scanFrom_add,
  Token.scanFrom_append_blank, Token.scan_blanks_between
-/
import PredicateLogic.Proofs.ScannedText
import PredicateLogic.Proofs.Scanning

namespace PredicateLogic

/-!
### The same text further on
-/

/-- The token, so many characters further on. -/
def Token.shift (offset : Nat) (token : Token) : Token :=
  { token with start := token.start + offset, stop := token.stop + offset }

/-- The illegal character, so many characters further on. -/
def IllegalCharacter.shift (offset : Nat) (illegal : IllegalCharacter) : IllegalCharacter :=
  { illegal with position := illegal.position + offset }

namespace Token

/-- What a scan comes to where its text stands so many characters further on. -/
def shiftScan (offset : Nat) (outcome : Except IllegalCharacter (List Token)) :
    Except IllegalCharacter (List Token) :=
  (outcome.map (List.map (shift offset))).mapError (IllegalCharacter.shift offset)

@[simp] theorem shiftScan_ok (offset : Nat) (tokens : List Token) :
    shiftScan offset (.ok tokens) = .ok (tokens.map (shift offset)) := rfl

@[simp] theorem shiftScan_error (offset : Nat) (illegal : IllegalCharacter) :
    shiftScan offset (.error illegal) = .error (illegal.shift offset) := rfl

/-- Where a text stands shows in the positions and nowhere else. -/
theorem scanFrom_add (position offset : Nat) (text : List Char) :
    scanFrom (position + offset) text = shiftScan offset (scanFrom position text) := by
  fun_induction scanFrom position text with
  | case1 position => simp [scanFrom]
  | case2 position c rest blank ih =>
      rw [scanFrom, if_pos blank, ← ih, Nat.add_right_comm]
  | case3 position c rest notBlank refused =>
      rw [scanFrom, if_neg notBlank, refused]
      rfl
  | case4 position c rest notBlank l more read stop =>
      rename_i ih
      have further : position + offset + 1 + more = stop + offset := by
        change _ = position + 1 + more + offset
        omega
      rw [scanFrom, if_neg notBlank, read]
      simp only [further, ih]
      cases scanFrom stop (rest.drop more) with
      | error illegal => rfl
      | ok others => simp [bind, Except.bind, pure, Except.pure, shift]

end Token

/-!
### Reading up to a blank
-/

/-- Elements behind one without a property do not matter to those with the property in front. -/
theorem takeWhile_append_cons {α : Type} {p : α → Bool} {x : α} (stops : p x = false)
    (xs ys : List α) :
    (xs ++ x :: ys).takeWhile p = xs.takeWhile p ∧
      (xs ++ x :: ys).dropWhile p = xs.dropWhile p ++ x :: ys := by
  induction xs with
  | nil => simp [stops]
  | cons first xs ih => cases holds : p first <;> simp [holds, ih]

namespace Lexeme

/-- No blank takes part in a pair. -/
theorem ofPair?_blank {c blank : Char} (isBlank : Token.isBlank blank = true) :
    ofPair? c blank = none := by
  unfold ofPair?
  split
  · cases isBlank
  · cases isBlank
  · cases isBlank
  · rfl

/-- What is read at the start of a text is read in front of a blank, whatever follows the blank. -/
theorem read?_append_blank {c blank : Char} (isBlank : Token.isBlank blank = true)
    (rest behind : List Char) : read? c (rest ++ blank :: behind) = read? c rest := by
  have notLetter : blank.isAlpha = false := Scans.isAlpha_eq_false isBlank
  have paired : (rest ++ blank :: behind).head?.bind (ofPair? c) = rest.head?.bind (ofPair? c) := by
    cases rest with
    | nil => exact ofPair?_blank isBlank
    | cons d rest => rfl
  obtain ⟨word, next⟩ := takeWhile_append_cons notLetter rest behind
  have opens : (((rest ++ blank :: behind).dropWhile Char.isAlpha).head? == some '(') =
      ((rest.dropWhile Char.isAlpha).head? == some '(') := by
    rw [next]
    cases rest.dropWhile Char.isAlpha with
    | nil =>
        -- The blank is what follows the word, and it opens nothing.
        rw [Bool.eq_iff_iff]
        constructor
        · intro opened
          obtain rfl : blank = '(' := by simpa using opened
          cases isBlank
        · intro opened
          cases opened
    | cons d rest => rfl
  simp only [read?, paired, word, opens]

end Lexeme

/-!
### Texts with blanks between them
-/

namespace Token

/-- Blanks at the start of a text are skipped. -/
theorem scanFrom_blanks {blanks : List Char} (blank : ∀ c ∈ blanks, isBlank c = true)
    (position : Nat) (text : List Char) :
    scanFrom position (blanks ++ text) = scanFrom (position + blanks.length) text := by
  induction blanks generalizing position with
  | nil => rfl
  | cons c blanks ih =>
      obtain ⟨first, others⟩ := List.forall_mem_cons.1 blank
      rw [List.cons_append, scanFrom, if_pos first, ih others, List.length_cons]
      congr 1
      omega

/-- A text in front of a blank is scanned by itself, and then what follows it is. -/
theorem scanFrom_append_blank {blank : Char} (blanks : isBlank blank = true)
    (position : Nat) (text behind : List Char) :
    scanFrom position (text ++ blank :: behind) = (do
      let front ← scanFrom position text
      let back ← scanFrom (position + text.length) (blank :: behind)
      return front ++ back) := by
  fun_induction scanFrom position text with
  | case1 position =>
      rw [List.nil_append, List.length_nil, Nat.add_zero]
      cases scanFrom position (blank :: behind) <;> rfl
  | case2 position c rest first ih =>
      have further : position + (c :: rest).length = position + 1 + rest.length := by
        rw [List.length_cons]
        omega
      rw [List.cons_append, scanFrom, if_pos first, ih, further]
  | case3 position c rest notBlank refused =>
      rw [List.cons_append, scanFrom, if_neg notBlank, Lexeme.read?_append_blank blanks, refused]
      rfl
  | case4 position c rest notBlank l more read stop =>
      rename_i ih
      have short := Lexeme.read?_le read
      have further : position + (c :: rest).length = stop + (rest.drop more).length := by
        change _ = position + 1 + more + _
        rw [List.length_cons, List.length_drop]
        omega
      rw [List.cons_append, scanFrom, if_neg notBlank, Lexeme.read?_append_blank blanks, read,
        further]
      simp only [List.drop_append_of_le_length short, stop] at ih ⊢
      rw [ih]
      cases scanFrom (position + 1 + more) (rest.drop more) with
      | error illegal => rfl
      | ok front =>
          cases scanFrom (position + 1 + more + (rest.drop more).length) (blank :: behind) <;> rfl

/-- Blanks between two texts keep them apart: the whole is scanned as the first text and then the
second one, which stands further on.  Where the first is refused the whole is, in the same place,
and where only the second is refused the whole is refused there. -/
theorem scan_blanks_between {between : String} (filled : between ≠ "")
    (blank : ∀ c ∈ between.toList, isBlank c = true) (first second : String) :
    scan (first ++ between ++ second) = (do
      let front ← scan first
      let back ← shiftScan (first.length + between.length) (scan second)
      return front ++ back) := by
  have nonempty : between.toList ≠ [] := fun empty => filled (String.toList_eq_nil_iff.1 empty)
  obtain ⟨c, others, split⟩ := List.exists_cons_of_ne_nil nonempty
  have start := blank c (by simp [split])
  have second' : scanFrom first.toList.length (between.toList ++ second.toList) =
      shiftScan (first.length + between.length) (scan second) := by
    rw [scanFrom_blanks blank, scan, ← scanFrom_add, Nat.zero_add, String.length_toList,
      String.length_toList]
  rw [split, List.cons_append] at second'
  rw [scan, String.toList_append, String.toList_append, List.append_assoc, split, List.cons_append,
    scanFrom_append_blank start, Nat.zero_add, second']
  rfl

/-- A name in front of a parenthesis is a function symbol, and one in front of blanks is not. -/
theorem scan_blanks_between_nameAndParenthesis :
    " \n" ≠ "" ∧ (∀ c ∈ " \n".toList, isBlank c = true) ∧
      scan ("f" ++ " \n" ++ "(x)") = .ok
        [{ lexeme := .var "f", start := 0, stop := 1 },
          { lexeme := .leftParen, start := 3, stop := 4 },
          { lexeme := .var "x", start := 4, stop := 5 },
          { lexeme := .rightParen, start := 5, stop := 6 }] := by
  have filled : " \n" ≠ "" := by decide
  have blank : ∀ c ∈ " \n".toList, isBlank c = true := List.all_eq_true.1 (by decide)
  exact ⟨filled, blank, (scan_blanks_between filled blank "f" "(x)").trans (by decide +kernel)⟩

end Token

end PredicateLogic
