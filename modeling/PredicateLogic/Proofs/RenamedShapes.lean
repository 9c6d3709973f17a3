/-
Module: PredicateLogic.Proofs.RenamedShapes
Purpose: What renaming keeps of the shape of a formula and of the spelling of its names.
  A walk changes names alone, so it keeps the shape and every condition on nodes that names have no
  part in.  The names it writes are those of the formula, names given before, and letters, and all
  of these can be spelled (`Scope.NamesSpellable`).
Main exports: Term.Written.mapOccurrences, Formula.RenamesTo.written,
  Formula.RenamesTo.everywhere, Scope.NamesSpellable, Formula.RenamesTo.namesSpellable,
  Formula.Written.rename, Formula.WithoutImplication.rename, Formula.NegationsOnAtoms.rename,
  Formula.spellable_rename
-/
import PredicateLogic.Proofs.CaptureAvoidance
import PredicateLogic.Proofs.SpellableNames
import PredicateLogic.Proofs.WrittenTrees

namespace PredicateLogic

/-!
### The shape
-/

/-- A term that was read keeps its shape when its occurrences are changed and stay unmarked. -/
theorem Term.Written.mapOccurrences {t : Term} {change : Variable → Variable}
    (unmarked : ∀ v, (change v).free = v.free) (written : t.Written) :
    (t.mapOccurrences change).Written := by
  induction written with
  | @var v plain =>
      rw [Term.mapOccurrences]
      exact .var ((unmarked v).trans plain)
  | @app name args span nonempty each ih =>
      rw [Term.mapOccurrences, mapOccurrencesList_eq_map]
      refine .app (by simpa using nonempty) ?_
      intro t member
      obtain ⟨t', member', rfl⟩ := List.mem_map.1 member
      exact ih t' member'

namespace Formula

variable {scope after : Scope} {f g : Formula}

/-- A walk keeps the shape of a formula that was read. -/
theorem RenamesTo.written {power : Nat} (walk : RenamesTo scope f g after)
    (written : f.Written power) : g.Written power := by
  induction walk generalizing power with
  | empty => exact written
  | term => exact Term.Written.mapOccurrences (fun _ => rfl) written
  | literal => exact written
  | predicate =>
      intro t member
      obtain ⟨t', member', rfl⟩ := List.mem_map.1 member
      exact (written t' member').mapOccurrences fun _ => rfl
  | neg argument ih => exact ih written
  | binary left right ihLeft ihRight =>
      exact ⟨written.1, ihLeft written.2.1, ihRight written.2.2⟩
  | group body ih => exact ih written
  | quantified entered body ih => exact ⟨written.1, ih written.2⟩

/-- A condition that walks keep at the root is kept everywhere. -/
theorem RenamesTo.everywhere {condition : Formula → Prop}
    (kept : ∀ {scope f g after}, RenamesTo scope f g after → condition f → condition g)
    (walk : RenamesTo scope f g after) (everywhere : f.Everywhere condition) :
    g.Everywhere condition := by
  induction walk with
  | empty => exact everywhere
  | term => exact kept .term everywhere
  | literal => exact everywhere
  | predicate => exact kept .predicate everywhere
  | neg argument ih => exact ⟨kept argument.neg everywhere.1, ih everywhere.2⟩
  | binary left right ihLeft ihRight =>
      obtain ⟨here, everyLeft, everyRight⟩ := everywhere
      exact ⟨kept (left.binary right) here, ihLeft everyLeft, ihRight everyRight⟩
  | group body ih => exact ⟨kept body.group everywhere.1, ih everywhere.2⟩
  | quantified entered body ih =>
      exact ⟨kept (.quantified entered body) everywhere.1, ih everywhere.2⟩

theorem RenamesTo.negatesAtom_eq (walk : RenamesTo scope f g after) :
    g.negatesAtom = f.negatesAtom := by
  cases walk with
  | neg argument => cases argument <;> rfl
  | _ => rfl

theorem RenamesTo.isImplication_eq (walk : RenamesTo scope f g after) :
    g.isImplication = f.isImplication := by
  cases walk with
  | @binary _ c _ _ _ _ _ _ _ left right => cases c <;> rfl
  | _ => rfl

end Formula

/-!
### The names
-/

/-- The names that a walk from this scope may write, in place of the names it reads, can be
spelled. -/
structure Scope.NamesSpellable (scope : Scope) : Prop where
  letters : ∀ x ∈ scope.letters, (Lexeme.var x).Spellable
  given : ∀ x ∈ scope.given.map Prod.snd, (Lexeme.var x).Spellable

namespace Scope.NamesSpellable

variable {scope : Scope}

/-- The name that stands for a name of the text is that name or one that was given. -/
theorem nameFor (spellable : scope.NamesSpellable) {name : String}
    (spelled : (Lexeme.var name).Spellable) : (Lexeme.var (scope.nameFor name)).Spellable := by
  unfold Scope.nameFor
  cases found : scope.given.lookup name with
  | none => exact spelled
  | some name' =>
      obtain ⟨before, after, split, -⟩ := List.lookup_eq_some_iff.1 found
      apply spellable.given
      simp [split]

theorem renameIn (spellable : scope.NamesSpellable) {t : Term} (spelled : t.Spellable) :
    (t.mapOccurrences (Variable.renameIn scope)).Spellable := by
  induction t with
  | var v =>
      rw [Term.mapOccurrences, Term.spellable_var]
      exact spellable.nameFor (Term.spellable_var.1 spelled)
  | app name args span ih =>
      obtain ⟨symbol, arguments⟩ := Term.spellable_app.1 spelled
      rw [Term.mapOccurrences, Term.mapOccurrencesList_eq_map, Term.spellable_app]
      refine ⟨symbol, ?_⟩
      intro t member
      obtain ⟨t', member', rfl⟩ := List.mem_map.1 member
      exact ih t' member' (arguments t' member')

/-- A walk leaves no names but those that were there. -/
theorem behind {f g : Formula} {after : Scope} (spellable : scope.NamesSpellable)
    (walk : Formula.RenamesTo scope f g after) : after.NamesSpellable := by
  obtain ⟨handed, letters, -⟩ := walk.effect.handed
  refine ⟨?_, ?_⟩
  · intro x letter
    apply spellable.letters
    rw [letters]
    exact List.mem_append.2 (Or.inr letter)
  · rw [walk.effect.given]
    exact spellable.given

/-- The name that a quantifier's variable is given is its own or a letter. -/
theorem entered {inner : Scope} {written name : String} (spellable : scope.NamesSpellable)
    (step : scope.Entered written name inner) (spelled : (Lexeme.var written).Spellable) :
    (Lexeme.var name).Spellable ∧ inner.NamesSpellable := by
  have named : (Lexeme.var name).Spellable ∧ ∀ x ∈ inner.letters, x ∈ scope.letters := by
    rcases step.choice with ⟨-, rfl, kept⟩ | ⟨-, used⟩
    · exact ⟨spelled, fun x letter => kept ▸ letter⟩
    · refine ⟨spellable.letters name (by rw [used]; exact List.mem_cons_self), ?_⟩
      intro x letter
      rw [used]
      exact List.mem_cons_of_mem name letter
  refine ⟨named.1, fun x letter => spellable.letters x (named.2 x letter), ?_⟩
  rw [step.given, List.map_cons, List.forall_mem_cons]
  exact ⟨named.1, spellable.given⟩

end Scope.NamesSpellable

/-- One character that is no capital letter spells a variable. -/
theorem Lexeme.ofWord_singleton {c : Char} (small : c.isUpper = false) :
    ofWord c [] false = .var c.toString := by
  have alone : String.ofList [c] = c.toString := rfl
  simp only [ofWord, List.map_cons, List.map_nil, small, alone]
  simp

/-- Every letter that can serve as a fresh name can be spelled. -/
theorem spellable_of_mem_alphabet {letter : String} (member : letter ∈ alphabet) :
    (Lexeme.var letter).Spellable := by
  have small : "abcdefghijklmnopqrstuvwxyz".toList.all
      (fun c => c.isAlpha && !c.isUpper) = true := by
    decide
  obtain ⟨c, listed, rfl⟩ := List.mem_map.1 member
  obtain ⟨isLetter, notUpper⟩ : c.isAlpha = true ∧ c.isUpper = false := by
    simpa using List.all_eq_true.1 small c listed
  exact Or.inr ⟨c, [], false, by simp [isLetter], Lexeme.ofWord_singleton notUpper⟩

/-- At the start of renaming nothing is given, and the letters are those of the alphabet. -/
theorem Scope.namesSpellable_ofFormula {f : Formula} {scope : Scope}
    (start : Scope.ofFormula f = .ok scope) : scope.NamesSpellable := by
  refine ⟨?_, ?_⟩
  · intro x letter
    obtain ⟨table, -, rfl⟩ := ofFormula_eq_ok_iff.1 start
    exact spellable_of_mem_alphabet (List.mem_filter.1 letter).1
  · rw [(Scope.ofFormula_eq_ok start).2.1]
    simp

namespace Formula

variable {scope after : Scope} {f g : Formula}

/-- A walk from a scope whose names can be spelled writes names that can be spelled. -/
theorem RenamesTo.namesSpellable (walk : RenamesTo scope f g after)
    (spellable : scope.NamesSpellable) (spelled : f.Everywhere Formula.namesSpellable) :
    g.Everywhere Formula.namesSpellable := by
  induction walk with
  | empty => exact spelled
  | term => exact spellable.renameIn spelled
  | literal => exact spelled
  | predicate =>
      refine ⟨spelled.1, ?_⟩
      intro t member
      obtain ⟨t', member', rfl⟩ := List.mem_map.1 member
      exact spellable.renameIn (spelled.2 t' member')
  | neg argument ih => exact ⟨trivial, ih spellable spelled.2⟩
  | binary left right ihLeft ihRight =>
      exact ⟨trivial, ihLeft spellable spelled.2.1,
        ihRight (spellable.behind left) spelled.2.2⟩
  | group body ih => exact ⟨trivial, ih spellable spelled.2⟩
  | quantified entered body ih =>
      obtain ⟨named, inside⟩ := spellable.entered (Scope.entered_of_enter entered) spelled.1
      exact ⟨named, ih inside spelled.2⟩

/-!
### Renaming
-/

theorem Written.rename {power : Nat} (written : f.Written power) (renamed : f.rename = .ok g) :
    g.Written power := by
  obtain ⟨scope, after, -, walk⟩ := rename_eq_ok.1 renamed
  exact walk.written written

/-- Renaming brings in no implication. -/
theorem WithoutImplication.rename (without : f.WithoutImplication)
    (renamed : f.rename = .ok g) : g.WithoutImplication := by
  obtain ⟨scope, after, -, walk⟩ := rename_eq_ok.1 renamed
  exact walk.everywhere (fun step plain => step.isImplication_eq.trans plain) without

/-- Renaming leaves negations where they are. -/
theorem NegationsOnAtoms.rename (normal : f.NegationsOnAtoms) (renamed : f.rename = .ok g) :
    g.NegationsOnAtoms := by
  obtain ⟨scope, after, -, walk⟩ := rename_eq_ok.1 renamed
  exact walk.everywhere (fun step atom => step.negatesAtom_eq.trans atom) normal

/-- Renaming brings in no name that cannot be spelled. -/
theorem spellable_rename (spelled : f.Everywhere Formula.namesSpellable)
    (renamed : f.rename = .ok g) : g.Everywhere Formula.namesSpellable := by
  obtain ⟨scope, after, start, walk⟩ := rename_eq_ok.1 renamed
  exact walk.namesSpellable (Scope.namesSpellable_ofFormula start) spelled

end Formula

end PredicateLogic
