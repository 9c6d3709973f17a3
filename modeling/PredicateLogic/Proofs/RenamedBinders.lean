/-
Module: PredicateLogic.Proofs.RenamedBinders
Purpose: Which binders renaming gives a new name, which letter each is given, and when it fails.
  A walk decides at each binder from what is taken by then, and this includes letters that it handed
  out before.  Read off the formula alone (`newNames`), a binder is given a new name if its name is
  free or if a binder before it has the same name, and the new names are the spare letters in their
  order.  So renaming changes no binder without need, and fails when it has to.
Main exports: newNames, newNames_append, getElem?_newNames, Formula.RenamesTo.boundNames_eq,
  Formula.MustRename, Formula.renamedBefore, Formula.RenamedInOrder, Formula.rename_minimal_ordered
-/
import PredicateLogic.Proofs.FreshLetters
import PredicateLogic.Proofs.NameConflicts

namespace PredicateLogic

variable {taken taken' letters names names' : List String} {name : String} {i : Nat}

/-!
### Names in place of names
-/

/-- The names that binders are given, from left to right: each keeps its own unless that is taken
when its turn comes, and then it is given the first letter left. -/
def newNames (taken letters : List String) : List String → List String
  | [] => []
  | name :: rest =>
      if name ∈ taken then
        letters.headD name :: newNames (name :: taken) letters.tail rest
      else
        name :: newNames (name :: taken) letters rest

theorem length_newNames : (newNames taken letters names).length = names.length := by
  induction names generalizing taken letters with
  | nil => rfl
  | cons name rest ih =>
      rw [newNames]
      split <;> rw [List.length_cons, List.length_cons, ih]

/-- Only those taken names count that are in the list. -/
theorem newNames_congr (same : ∀ x ∈ names, (x ∈ taken ↔ x ∈ taken')) :
    newNames taken letters names = newNames taken' letters names := by
  induction names generalizing taken taken' letters with
  | nil => rfl
  | cons name rest ih =>
      have rest' (left : List String) :
          newNames (name :: taken) left rest = newNames (name :: taken') left rest := by
        apply ih
        intro x member
        rw [List.mem_cons, List.mem_cons, same x (List.mem_cons_of_mem name member)]
      rw [newNames, newNames, rest', rest']
      simp only [same name List.mem_cons_self]

/-- The names of a second list are taken after those of the first, and the letters that the clashes
of the first used up are gone. -/
theorem newNames_append :
    newNames taken letters (names ++ names') =
      newNames taken letters names ++
        newNames (names ++ taken) (letters.drop (clashes taken names)) names' := by
  induction names generalizing taken letters with
  | nil => simp [newNames, clashes]
  | cons name rest ih =>
      have moved (left : List String) :
          newNames (rest ++ name :: taken) left names' =
            newNames (name :: rest ++ taken) left names' := by
        apply newNames_congr
        intro x _
        simp only [List.mem_append, List.mem_cons, List.cons_append]
        exact or_left_comm
      rw [List.cons_append, newNames, newNames, clashes, ih, ih, moved, moved]
      split
      · simp only [List.cons_append, List.drop_tail, Nat.add_comm 1]
      · simp only [List.cons_append, Nat.zero_add]

/-- A name is replaced if it was taken at the start or stands further left as well, and then by the
letter whose turn it is after one letter for each clash further left. -/
theorem getElem?_newNames (listed : names[i]? = some name) :
    (newNames taken letters names)[i]? =
      some (if name ∈ taken ∨ name ∈ names.take i then
        (letters[clashes taken (names.take i)]?).getD name else name) := by
  induction names generalizing taken letters i with
  | nil => simp at listed
  | cons first rest ih =>
      cases i with
      | zero =>
          obtain rfl : first = name := by simpa using listed
          rw [newNames]
          split
          case isTrue known =>
            simp [known, clashes, List.headD_eq_head?_getD, List.head?_eq_getElem?]
          case isFalse unknown => simp [unknown]
      | succ i =>
          have further : rest[i]? = some name := by simpa using listed
          have members : name ∈ first :: taken ∨ name ∈ rest.take i ↔
              name ∈ taken ∨ name ∈ (first :: rest).take (i + 1) := by
            simp only [List.take_succ_cons, List.mem_cons]
            tauto
          rw [newNames]
          split
          case isTrue known =>
            rw [List.getElem?_cons_succ, ih further, List.take_succ_cons, clashes, if_pos known,
              List.getElem?_tail, Nat.add_comm 1]
            simp only [members, List.take_succ_cons]
          case isFalse unknown =>
            rw [List.getElem?_cons_succ, ih further, List.take_succ_cons, clashes, if_neg unknown,
              Nat.zero_add]
            simp only [members, List.take_succ_cons]

namespace Formula

variable {f g : Formula} {scope after : Scope} {x : String}

/-- A walk leaves the letters of the pool without one for each clash. -/
theorem RenamesTo.letters_eq_drop (walk : RenamesTo scope f g after) (pool : scope.PoolFor f)
    (free : scope.TakesFree f) :
    after.letters = scope.letters.drop (clashes scope.taken f.boundNames) := by
  obtain ⟨handed, split, -⟩ := walk.effect.handed
  have count := walk.letters_length pool free
  have used : clashes scope.taken f.boundNames = handed.length := by
    rw [split, List.length_append] at count
    omega
  rw [used, split, List.drop_left]

/-- The binders of the result of a walk, told by the bound names of the formula, by what was taken
before the walk and by the letters of the pool. -/
theorem RenamesTo.boundNames_eq (walk : RenamesTo scope f g after) (pool : scope.PoolFor f)
    (free : scope.TakesFree f) :
    g.boundNames = newNames scope.taken scope.letters f.boundNames := by
  induction walk with
  | neg argument ih => exact ih ⟨pool.distinct, pool.untaken, pool.unused⟩ free
  | binary left right ihLeft ihRight =>
      rw [Formula.boundNames, Formula.boundNames, newNames_append, ihLeft pool.left free.left,
        ihRight (pool.right left) (free.right left), left.letters_eq_drop pool.left free.left,
        newNames_congr (left.mem_taken_right pool free)]
  | group body ih => exact ih ⟨pool.distinct, pool.untaken, pool.unused⟩ free
  | quantified entered body ih =>
      have step := Scope.entered_of_enter entered
      have inside := ih (pool.body step) (free.body step)
      rw [newNames_congr (pool.mem_taken_entered step)] at inside
      rw [Formula.boundNames, Formula.boundNames, newNames, inside]
      rcases step.choice with ⟨untaken, rfl, kept⟩ | ⟨taken, used⟩
      · rw [if_neg untaken, kept]
      · rw [if_pos taken, used, List.headD_cons, List.tail_cons]
  | _ => rfl

/-!
### Binders that have to be renamed
-/

/-- The binder at a place among all binders has to be renamed: its name is free in the formula, or a
binder before it has the same name. -/
def MustRename (f : Formula) (i : Nat) : Prop :=
  ∃ name ∈ f.boundNames[i]?, f.LeavesFree name ∨ name ∈ f.boundNames.take i

instance (f : Formula) (i : Nat) : Decidable (f.MustRename i) :=
  inferInstanceAs (Decidable (∃ name ∈ f.boundNames[i]?, _))

/-- How many binders before a place have to be renamed. -/
def renamedBefore (f : Formula) (i : Nat) : Nat :=
  (List.range i).countP fun j => f.MustRename j

/-- How many binders of a formula have to be renamed. -/
def renamedCount (f : Formula) : Nat := f.renamedBefore f.boundNames.length

theorem renamedBefore_succ (f : Formula) (i : Nat) :
    f.renamedBefore (i + 1) = f.renamedBefore i + if f.MustRename i then 1 else 0 := by
  simp [renamedBefore, List.range_succ, List.countP_append, List.countP_singleton]

theorem mustRename_iff (listed : f.boundNames[i]? = some name) :
    f.MustRename i ↔ f.LeavesFree name ∨ name ∈ f.boundNames.take i := by
  simp [MustRename, listed]

/-- Where what is taken is what is free, the clashes up to a place are the binders before it that
have to be renamed. -/
theorem clashes_take (free : ∀ x, x ∈ taken ↔ f.LeavesFree x) (i : Nat) :
    clashes taken (f.boundNames.take i) = f.renamedBefore i := by
  induction i with
  | zero => rfl
  | succ i ih =>
      rw [List.take_add_one, clashes_append, ih, renamedBefore_succ]
      cases listed : f.boundNames[i]? with
      | none => simp [MustRename, listed, clashes]
      | some name =>
          simp only [mustRename_iff listed, ← free, Option.toList_some, clashes, List.mem_append,
            Nat.add_zero, or_comm]

/-- The binders that have to be renamed are those that clash. -/
theorem renamedCount_eq_clashCount (consistent : Consistent f.identifiers) :
    f.renamedCount = f.clashCount := by
  obtain ⟨scope, start⟩ := Scope.exists_ofFormula consistent
  obtain ⟨-, -, free, -, -⟩ := Scope.ofFormula_eq_ok start
  rw [renamedCount, ← clashes_take free, List.take_length, clashes_boundNames free]

/-- A binder that has to be renamed is one more than there are before it. -/
theorem renamedBefore_lt_renamedCount (must : f.MustRename i) :
    f.renamedBefore i < f.renamedCount := by
  have ⟨name, listed, _⟩ := must
  have within : i + 1 ≤ f.boundNames.length := (List.getElem?_eq_some_iff.1 listed).1
  have next := renamedBefore_succ f i
  rw [if_pos must] at next
  have further : f.renamedBefore (i + 1) ≤ f.renamedCount :=
    (List.range_sublist.2 within).countP_le
  omega

/-!
### Formulas that can be renamed
-/

/-- A formula is another one renamed without need and out of turn nowhere: the two differ in the
names of bound variables alone, a binder has a new name exactly if it has to be renamed, and that is
the spare letter whose turn it is. -/
structure RenamedInOrder (f g : Formula) : Prop where
  same : f.AlphaEquivalent g
  length : g.boundNames.length = f.boundNames.length
  renamed_iff : ∀ i, g.boundNames[i]? ≠ f.boundNames[i]? ↔ f.MustRename i
  letter : ∀ i, f.MustRename i →
    ∃ letter, f.spareLetters[f.renamedBefore i]? = some letter ∧ g.boundNames[i]? = some letter

/-- The binders of a renamed formula, told by the free and the bound names and the spare letters. -/
theorem boundNames_of_rename (renamed : f.rename = .ok g) :
    ∃ taken, (∀ x, x ∈ taken ↔ f.LeavesFree x) ∧
      g.boundNames = newNames taken f.spareLetters f.boundNames := by
  obtain ⟨scope, after, start, walk⟩ := rename_eq_ok.1 renamed
  obtain ⟨-, -, free, -, -⟩ := Scope.ofFormula_eq_ok start
  have names := walk.boundNames_eq (poolFor_ofFormula start) fun x outside => (free x).2 outside
  rw [spareLetters_eq_letters start] at names
  exact ⟨scope.taken, free, names⟩

theorem getElem?_boundNames_of_rename (renamed : f.rename = .ok g)
    (listed : f.boundNames[i]? = some name) :
    g.boundNames[i]? = some (if f.MustRename i then
      (f.spareLetters[f.renamedBefore i]?).getD name else name) := by
  obtain ⟨taken, free, names⟩ := boundNames_of_rename renamed
  rw [names, getElem?_newNames listed, clashes_take free]
  simp only [mustRename_iff listed, free]

/-- There is a spare letter for every binder that has to be renamed, and it is given that. -/
theorem exists_letter_of_rename (renamed : f.rename = .ok g) (must : f.MustRename i) :
    ∃ letter, f.spareLetters[f.renamedBefore i]? = some letter ∧
      g.boundNames[i]? = some letter := by
  obtain ⟨consistent, enough⟩ := exists_rename_iff.1 ⟨g, renamed⟩
  rw [← renamedCount_eq_clashCount consistent] at enough
  have within := renamedBefore_lt_renamedCount must
  have spare := List.getElem?_eq_getElem (Nat.lt_of_lt_of_le within enough)
  have ⟨name, listed, _⟩ := must
  refine ⟨_, spare, ?_⟩
  rw [getElem?_boundNames_of_rename renamed listed, if_pos must, spare, Option.getD_some]

/-- A spare letter is no bound name. -/
theorem ne_of_spareLetter {letter : String} (spare : letter ∈ f.spareLetters)
    (bound : name ∈ f.boundNames) : letter ≠ name := by
  rintro rfl
  have listed := mem_identifiers_var.2 (Or.inr bound)
  have unlisted := (List.mem_filter.1 spare).2
  rw [decide_eq_true_eq] at unlisted
  exact unlisted (List.mem_map_of_mem listed)

theorem renamedInOrder_of_rename (renamed : f.rename = .ok g) : f.RenamedInOrder g := by
  have lengths : g.boundNames.length = f.boundNames.length := by
    obtain ⟨taken, -, names⟩ := boundNames_of_rename renamed
    rw [names, length_newNames]
  refine ⟨alphaEquivalent_of_rename renamed, lengths, ?_, fun i => exists_letter_of_rename renamed⟩
  intro i
  constructor
  · intro different
    by_contra settled
    cases listed : f.boundNames[i]? with
    | none =>
        rw [listed] at different
        apply different
        rw [List.getElem?_eq_none_iff, lengths]
        exact List.getElem?_eq_none_iff.1 listed
    | some name =>
        rw [getElem?_boundNames_of_rename renamed listed, if_neg settled, listed] at different
        exact different rfl
  · intro must unchanged
    obtain ⟨letter, spare, given⟩ := exists_letter_of_rename renamed must
    rw [given] at unchanged
    exact ne_of_spareLetter (List.mem_of_getElem? spare) (List.mem_of_getElem? unchanged.symm) rfl

/-!
### Formulas that cannot be renamed
-/

theorem ofFormula_eq_error {error : NamingError} :
    Scope.ofFormula f = .error error ↔ f.nameTable = .error error := by
  rw [Scope.ofFormula, bind_eq_error_iff]
  simp [pure, Except.pure]

/-- Renaming reports a name with two roles exactly where the name table does. -/
theorem rename_eq_conflict : f.rename = .error (.conflict x) ↔ FirstConflict f.identifiers x := by
  have table : f.nameTable = .error (.conflict x) ↔ FirstConflict f.identifiers x := by
    simp [nameTable_eq_error]
  rw [← table, ← ofFormula_eq_error, rename_eq_error]
  simp

/-- Renaming runs out of letters where the names have one role each and it still fails. -/
theorem rename_eq_exhausted :
    f.rename = .error .exhausted ↔ Consistent f.identifiers ∧ ¬ ∃ g, f.rename = .ok g := by
  constructor
  · intro failed
    refine ⟨?_, by simp [failed]⟩
    by_contra inconsistent
    obtain ⟨x, conflict⟩ := exists_firstConflict_iff.2 inconsistent
    cases failed.symm.trans (rename_eq_conflict.2 conflict)
  · rintro ⟨consistent, failed⟩
    cases outcome : f.rename with
    | ok g => exact absurd ⟨g, outcome⟩ failed
    | error e =>
        cases e with
        | exhausted => rfl
        | conflict x =>
            exact absurd consistent (exists_firstConflict_iff.1 ⟨x, rename_eq_conflict.1 outcome⟩)

/-- Renaming changes the names of those binders alone that have to be renamed, gives them the spare
letters in order, and fails only at the first name with two roles or for want of letters. -/
theorem rename_minimal_ordered (f : Formula) :
    (∀ x, f.rename = .error (.conflict x) ↔ FirstConflict f.identifiers x) ∧
      ((∃ x, f.rename = .error (.conflict x)) ↔
        ∃ x, (x, .var) ∈ f.identifiers ∧ (x, .function) ∈ f.identifiers) ∧
      (f.rename = .error .exhausted ↔
        Consistent f.identifiers ∧ f.spareLetters.length < f.renamedCount) ∧
      ((∃ g, f.rename = .ok g) ↔
        Consistent f.identifiers ∧ f.renamedCount ≤ f.spareLetters.length) ∧
      ∀ g, f.rename = .ok g → f.RenamedInOrder g := by
  have possible : (∃ g, f.rename = .ok g) ↔
      Consistent f.identifiers ∧ f.renamedCount ≤ f.spareLetters.length := by
    rw [exists_rename_iff]
    apply and_congr_right
    intro consistent
    rw [renamedCount_eq_clashCount consistent]
  refine ⟨fun x => rename_eq_conflict, ?_, ?_, possible, fun g => renamedInOrder_of_rename⟩
  · simp only [rename_eq_conflict]
    rw [exists_firstConflict_iff, not_consistent_iff]
  · rw [rename_eq_exhausted, possible]
    apply and_congr_right
    intro consistent
    rw [not_and, not_le]
    exact forall_prop_of_true consistent

/-- `P(x) & (A.v Q(v, a) | E.y A.w R(w))`, where `v` and `w` are the given names. -/
def rebinding (v w : String) : Formula :=
  .binary .conjunction (.predicate "P" [.var { name := "x" }] .unknown)
    (.group
      (.binary .disjunction
        (.quantified .universal { name := v }
          (.predicate "Q" [.var { name := v }, .var { name := "a" }] .unknown) .unknown)
        (.quantified .existential { name := "y" }
          (.quantified .universal { name := w }
            (.predicate "R" [.var { name := w }] .unknown) .unknown) .unknown) .unknown)
      .unknown) .unknown

theorem rename_minimal_ordered_rebinding :
    (rebinding "x" "y").rename = .ok (rebinding "b" "c") ∧
      (rebinding "x" "y").RenamedInOrder (rebinding "b" "c") := by
  have renamed : (rebinding "x" "y").rename = .ok (rebinding "b" "c") := by decide +kernel
  exact ⟨renamed, (rename_minimal_ordered (rebinding "x" "y")).2.2.2.2 _ renamed⟩

end Formula

end PredicateLogic
