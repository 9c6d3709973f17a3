/-
Module: PredicateLogic.Proofs.TokenTiling
Purpose: The tokens of a text and blanks between them are the whole text, each token is a spelling
  of its class, and words are runs of letters.
  What a token is depends on its own characters and on one neighbour at each end.  The neighbour in
  front is known from the boundary that the scanner stands at, and the one behind is what ended the
  token.
Main exports: Token.written, Token.FillsRun, Token.Placed, Token.Boundary.placed, Token.Tiling,
  Token.tiling_of_scan
-/
import PredicateLogic.Proofs.SpellingRules

namespace PredicateLogic

/-!
### Names and words
-/

namespace Lexeme

variable {c : Char} {rest : List Char} {l : Lexeme} {more : Nat}

theorem kind_eq_name_iff : l.kind = .name ↔ l.name? ≠ none := by
  cases l <;> simp [kind, name?]

/-- The word at the start of a text. -/
theorem take_word (c : Char) (rest : List Char) :
    (c :: rest).take ((rest.takeWhile Char.isAlpha).length + 1) =
      c :: rest.takeWhile Char.isAlpha := by
  rw [List.take_succ_cons, ← List.prefix_iff_eq_take.1 (List.takeWhile_prefix _)]

/-- A name carries the characters that it takes, and nothing else carries any. -/
theorem name?_of_read? (read : read? c rest = some (l, more)) :
    l.name? =
      if l.kind = .name then some (String.ofList ((c :: rest).take (more + 1))) else none := by
  have nameless (none : l.name? = none) : l.name? =
      if l.kind = .name then some (String.ofList ((c :: rest).take (more + 1)))
      else Option.none := by
    rw [if_neg (fun named => kind_eq_name_iff.1 named none), none]
  rcases read?_cases read with
    ⟨d, tail, rfl, paired, rfl⟩ | ⟨letter, unpaired, rfl, rfl⟩ | ⟨notLetter, symbolic, rfl⟩
  · exact nameless (name?_ofPair? paired)
  · rw [take_word]
    unfold ofWord
    grind [name?, kind]
  · exact nameless (name?_ofSymbol? symbolic)

/-- What takes letters only, and is no operator, is read as a word. -/
theorem word_of_read? (read : read? c rest = some (l, more))
    (isWord : l.kind = .name ∨
      (l.kind = .boolean ∧ ∀ d ∈ (c :: rest).take (more + 1), d.isAlpha = true)) :
    c.isAlpha = true ∧ (∀ d, rest.head? = some d → ofPair? c d = none) ∧
      more = (rest.takeWhile Char.isAlpha).length ∧
      l = ofWord c (rest.takeWhile Char.isAlpha)
        ((rest.dropWhile Char.isAlpha).head? == some '(') := by
  rcases read?_cases read with
    ⟨d, tail, rfl, paired, rfl⟩ | word | ⟨notLetter, symbolic, rfl⟩
  · rcases ofPair?_cases paired with ⟨-, -, rfl⟩ | ⟨-, -, rfl⟩ | ⟨-, -, rfl⟩ <;>
      simp [kind] at isWord
  · exact word
  · rcases isWord with named | ⟨-, letters⟩
    · exact absurd (name?_ofSymbol? symbolic) (kind_eq_name_iff.1 named)
    · cases notLetter.symm.trans (letters c (by simp))

end Lexeme

namespace Token

/-!
### One token in its text
-/

/-- The characters that a token takes of the text. -/
def written (text : List Char) (token : Token) : List Char :=
  text.extract token.start token.stop

/-- The token is a name, or a truth value that is written in letters. -/
def IsWord (text : List Char) (token : Token) : Prop :=
  token.lexeme.kind = .name ∨
    (token.lexeme.kind = .boolean ∧ ∀ c ∈ token.written text, c.isAlpha = true)

/-- The characters of the token are letters, with no letter in front of them and none behind, and
they are not the letter of a quantifier in front of its point. -/
structure FillsRun (text : List Char) (token : Token) : Prop where
  letters : ∀ c ∈ token.written text, c.isAlpha = true
  starts : ∀ c, before? text token.start = some c → c.isAlpha = false
  ends : ∀ c, text[token.stop]? = some c → c.isAlpha = false
  noQuantifier : token.written text = ['A'] ∨ token.written text = ['E'] →
    text[token.stop]? ≠ some '.'

/-- The token is right for the characters that it takes of the text and for those around them. -/
structure Placed (text : List Char) (token : Token) : Prop where
  /-- The characters are a spelling of the class. -/
  spelled : token.lexeme.tokenClass.SpelledBy (token.written text)
  /-- Names carry their characters, and no other token carries any. -/
  named : token.lexeme.name? =
    if token.lexeme.kind = .name then some (String.ofList (token.written text)) else none
  /-- A quantifier that is written with a point follows no letter. -/
  parted : token.written text = ['A', '.'] ∨ token.written text = ['E', '.'] →
    ∀ c, before? text token.start = some c → c.isAlpha = false
  /-- A word is a whole run of letters, which decide its class with the next character. -/
  word : token.IsWord text → token.FillsRun text ∧
    token.lexeme.tokenClass = .ofWord (token.written text) text[token.stop]?

/-- The tokens are all that is in the text besides blanks. -/
structure Tiling (text : List Char) (tokens : List Token) : Prop where
  inOrder : InOrder tokens
  within : ∀ token ∈ tokens, token.stop ≤ text.length
  blanks : ∀ i c, text[i]? = some c →
    (∀ token ∈ tokens, ¬ (token.start ≤ i ∧ i < token.stop)) → isBlank c = true
  placed : ∀ token ∈ tokens, token.Placed text

variable {text rest : List Char} {position : Nat} {c : Char} {l : Lexeme} {more : Nat}
  {tokens : List Token}

/-- The first token of the rest of a text takes the first characters of the rest. -/
theorem written_of_drop (l : Lexeme) (more : Nat) (here : text.drop position = c :: rest) :
    written text { lexeme := l, start := position, stop := position + 1 + more } =
      (c :: rest).take (more + 1) := by
  rw [written, List.extract_eq_take_drop, here, Nat.add_assoc, Nat.add_sub_cancel_left,
    Nat.add_comm 1 more]

namespace Boundary

/-- A word is a whole run of letters. -/
theorem fillsRun (boundary : Boundary text position) (here : text.drop position = c :: rest)
    (letter : c.isAlpha = true) (unpaired : ∀ d, rest.head? = some d → Lexeme.ofPair? c d = none)
    (whole : more = (rest.takeWhile Char.isAlpha).length) :
    FillsRun text { lexeme := l, start := position, stop := position + 1 + more } := by
  have first : text[position]? = some c := getElem?_of_drop here 0
  have next : text[position + 1 + more]? = rest[more]? :=
    getElem?_of_drop (drop_succ_of_drop here) more
  have taken := written_of_drop l more here
  rw [whole, Lexeme.take_word, ← whole] at taken
  refine ⟨?_, ?_, ?_, ?_⟩
  · rw [taken]
    exact List.forall_mem_cons.2 ⟨letter, List.all_eq_true.1 List.all_takeWhile⟩
  · exact boundary.alone first letter
  · intro d behind
    exact (getElem?_takeWhile (next.symm.trans behind)).2 whole
  · rw [taken]
    intro single point
    have short : more = 0 := by
      rcases single with same | same <;> simp [whole, (List.cons.inj same).2]
    have follows : rest.head? = some '.' := by
      rw [List.head?_eq_getElem?, ← short, ← next]
      exact point
    rcases single with same | same
    · obtain rfl := (List.cons.inj same).1
      cases unpaired '.' follows
    · obtain rfl := (List.cons.inj same).1
      cases unpaired '.' follows

/-- What is read at a boundary is right for its place. -/
theorem placed (boundary : Boundary text position) (here : text.drop position = c :: rest)
    (read : Lexeme.read? c rest = some (l, more)) :
    Placed text { lexeme := l, start := position, stop := position + 1 + more } := by
  have taken := written_of_drop l more here
  have first : text[position]? = some c := getElem?_of_drop here 0
  refine ⟨?_, ?_, ?_, ?_⟩
  · rw [taken]
    exact Lexeme.spelledBy_of_read? read
  · rw [taken]
    exact Lexeme.name?_of_read? read
  · rw [taken, List.take_succ_cons]
    rintro (same | same)
    · exact boundary.alone first ((List.cons.inj same).1 ▸ rfl)
    · exact boundary.alone first ((List.cons.inj same).1 ▸ rfl)
  · intro isWord
    obtain ⟨letter, unpaired, whole, rfl⟩ := Lexeme.word_of_read? read (taken ▸ isWord)
    refine ⟨boundary.fillsRun here letter unpaired whole, ?_⟩
    have next : text[position + 1 + more]? = (rest.dropWhile Char.isAlpha).head? := by
      rw [getElem?_of_drop (drop_succ_of_drop here), whole, getElem?_length_takeWhile]
    rw [taken, whole, Lexeme.take_word, ← whole, next]
    exact Lexeme.tokenClass_ofWord _ _ _

end Boundary

/-!
### The tokens of a text
-/

namespace Scanned

/-- What is in no token is blank. -/
theorem blanks (scanned : Scanned position text tokens) {i : Nat} (here : text[i]? = some c)
    (outside : ∀ token ∈ tokens, ¬ (token.start ≤ position + i ∧ position + i < token.stop)) :
    isBlank c = true := by
  induction scanned generalizing i with
  | nil => cases here
  | @blank position d rest tokens blank scanned ih =>
      cases i with
      | zero =>
          cases here
          exact blank
      | succ i =>
          apply ih here
          rwa [Nat.add_right_comm]
  | @token position d rest l more tokens visible read scanned ih =>
      obtain ⟨notHere, others⟩ := List.forall_mem_cons.1 outside
      have behind : more + 1 ≤ i := by
        dsimp only at notHere
        omega
      obtain ⟨k, rfl⟩ := Nat.exists_eq_add_of_le behind
      have place : position + (more + 1 + k) = position + 1 + more + k := by omega
      rw [place] at others
      refine ih ?_ others
      rw [List.getElem?_drop, ← here, Nat.add_right_comm, List.getElem?_cons_succ]

/-- From a boundary on, every token is right for its place. -/
theorem placed (scanned : Scanned position rest tokens) (boundary : Boundary text position)
    (here : text.drop position = rest) : ∀ token ∈ tokens, token.Placed text := by
  induction scanned with
  | nil => simp
  | blank blank scanned ih =>
      exact ih (Boundary.blank (getElem?_of_drop here 0) blank) (drop_succ_of_drop here)
  | token visible read scanned ih =>
      have further := ih (Boundary.read here read)
        (by rw [← drop_succ_of_drop here, List.drop_drop])
      exact List.forall_mem_cons.2 ⟨boundary.placed here read, further⟩

end Scanned

/-- The tokens of a text that is scanned tile it, with blanks between them. -/
theorem tiling_of_scan {text : String} {tokens : List Token} (scanned : scan text = .ok tokens) :
    Tiling text.toList tokens := by
  have consists := scanFrom_eq_ok_iff.1 scanned
  refine ⟨consists.inOrder, ?_, ?_, ?_⟩
  · intro token member
    simpa using (consists.within token member).2.2
  · intro i c here outside
    refine consists.blanks here ?_
    simpa using outside
  · exact consists.placed (Boundary.start _) rfl

/-- Words touch operators and end in letters of quantifiers, and one is a truth value. -/
theorem tiling_of_scan_wordsThroughout : ∃ tokens : List Token,
    scan "A.xA|trUE&f(A )" = .ok tokens ∧
      tokens.map Token.lexeme =
        [.quantifier .universal, .var "xA", .connective .disjunction, .literal true,
          .connective .conjunction, .function "f", .leftParen, .predicate "A", .rightParen] ∧
      Tiling "A.xA|trUE&f(A )".toList tokens := by
  have scanned : scan "A.xA|trUE&f(A )" = .ok
      [⟨.quantifier .universal, 0, 2⟩, ⟨.var "xA", 2, 4⟩, ⟨.connective .disjunction, 4, 5⟩,
        ⟨.literal true, 5, 9⟩, ⟨.connective .conjunction, 9, 10⟩, ⟨.function "f", 10, 11⟩,
        ⟨.leftParen, 11, 12⟩, ⟨.predicate "A", 12, 13⟩, ⟨.rightParen, 14, 15⟩] := by
    decide +kernel
  exact ⟨_, scanned, rfl, tiling_of_scan scanned⟩

end Token

end PredicateLogic
