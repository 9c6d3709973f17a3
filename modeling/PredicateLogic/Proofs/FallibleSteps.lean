/-
Module: PredicateLogic.Proofs.FallibleSteps
Purpose: What a computation that may fail comes to, told by its steps.
  Of two steps one after the other the first fails, or the second does on what the first came to.
  A function applied to a result neither fails nor mends a failure.
Main exports: bind_eq_ok_iff, bind_eq_error_iff, map_eq_ok_iff, exists_map_iff
-/

namespace PredicateLogic

section

variable {ε α β γ : Type} {first : Except ε α} {next : α → Except ε β} {b : β}

theorem bind_eq_ok_iff :
    first >>= next = .ok b ↔ ∃ a, first = .ok a ∧ next a = .ok b := by
  cases first <;> simp [bind, Except.bind]

theorem bind_eq_error_iff {error : ε} :
    first >>= next = .error error ↔
      first = .error error ∨ ∃ a, first = .ok a ∧ next a = .error error := by
  cases first <;> simp [bind, Except.bind]

theorem map_eq_ok_iff {change : α → β} :
    first.map change = .ok b ↔ ∃ a, first = .ok a ∧ change a = b := by
  cases first <;> simp [Except.map]

theorem exists_map_iff (first : Except ε α) (change : α → β × γ) :
    (∃ b c, first.map change = .ok (b, c)) ↔ ∃ a, first = .ok a := by
  simp only [map_eq_ok_iff]
  constructor
  · rintro ⟨b, c, a, found, -⟩
    exact ⟨a, found⟩
  · rintro ⟨a, found⟩
    exact ⟨_, _, a, found, rfl⟩

end

end PredicateLogic
