/-
Module: PredicateLogic.Term.Basic
Purpose: Terms that remember where they were read.
Main exports:
  Span, Variable, Term, Term.size
-/

namespace PredicateLogic

/-!
### Source ranges

A node that was read from a text knows the half-open range of characters it was read from.  A node
that was built anew has no range.  Ranges are diagnostic only.
-/

/-- The half-open range of characters that a node was read from, where known. -/
structure Span where
  start : Option Nat := none
  stop : Option Nat := none
deriving Repr, DecidableEq, Inhabited

/-- The range from one character up to, and not including, another. -/
def Span.between (start stop : Nat) : Span :=
  { start := some start, stop := some stop }

/-- The range of a node that was not read from a text. -/
def Span.unknown : Span := {}

/-!
### Terms

Variables and constants share one form, a name.  A term is a name or a function symbol applied to
terms.
-/

/-- One occurrence of a variable or constant.  The mark `free` says whether the occurrence is
free, once it has been marked. -/
structure Variable where
  name : String
  free : Option Bool := none
  span : Span := {}
deriving Repr, DecidableEq, Inhabited

/-- A variable or constant, or a function symbol applied to terms. -/
inductive Term where
  | var (occurrence : Variable)
  | app (name : String) (arguments : List Term) (span : Span)
deriving Repr, Inhabited

mutual

/-- Terms have decidable equality. -/
protected def Term.decEq : (s t : Term) → Decidable (s = t)
  | .var v, .var w =>
      match decEq v w with
      | isTrue same => isTrue (congrArg Term.var same)
      | isFalse different => isFalse fun h => different (Term.var.inj h)
  | .app f ss p, .app g ts q =>
      match decEq f g, Term.decEqList ss ts, decEq p q with
      | isTrue hf, isTrue hs, isTrue hp => isTrue (by rw [hf, hs, hp])
      | isFalse hf, _, _ => isFalse fun h => hf (Term.app.inj h).1
      | _, isFalse hs, _ => isFalse fun h => hs (Term.app.inj h).2.1
      | _, _, isFalse hp => isFalse fun h => hp (Term.app.inj h).2.2
  | .var _, .app _ _ _ => isFalse Term.noConfusion
  | .app _ _ _, .var _ => isFalse Term.noConfusion

/-- Lists of terms have decidable equality. -/
protected def Term.decEqList : (ss ts : List Term) → Decidable (ss = ts)
  | [], [] => isTrue rfl
  | s :: ss, t :: ts =>
      match Term.decEq s t, Term.decEqList ss ts with
      | isTrue hs, isTrue hss => isTrue (by rw [hs, hss])
      | isFalse hs, _ => isFalse fun h => hs (List.cons.inj h).1
      | _, isFalse hss => isFalse fun h => hss (List.cons.inj h).2
  | [], _ :: _ => isFalse (List.cons_ne_nil _ _).symm
  | _ :: _, [] => isFalse (List.cons_ne_nil _ _)

end

instance : DecidableEq Term := Term.decEq

/-- The range a term was read from. -/
def Term.span : Term → Span
  | .var v => v.span
  | .app _ _ span => span

mutual

/-- The number of nodes of a term. -/
def Term.size : Term → Nat
  | .var _ => 1
  | .app _ args _ => Term.sizeList args + 1

/-- The number of nodes of terms. -/
def Term.sizeList : List Term → Nat
  | [] => 0
  | t :: ts => t.size + Term.sizeList ts

end

/-- What holds of names, and of a function symbol applied to terms as soon as it holds of those
terms, holds of every term. -/
@[induction_eliminator]
theorem Term.inductionOn {motive : Term → Prop} (var : ∀ occurrence, motive (.var occurrence))
    (app : ∀ name args span, (∀ t ∈ args, motive t) → motive (.app name args span))
    (t : Term) : motive t := by
  refine @Term.rec motive (fun ts => ∀ t ∈ ts, motive t) var app ?_ ?_ t
  · intro t member
    exact absurd member List.not_mem_nil
  · intro first rest hfirst hrest t member
    rcases List.mem_cons.1 member with rfl | member
    · exact hfirst
    · exact hrest t member

end PredicateLogic
