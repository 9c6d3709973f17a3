/-
Module: PredicateLogic.Proofs.ToldEvents
Purpose: Reading and transforming come to the same with a logger at hand as without one.
  Work with a logger has the same result and gives the same records whatever the logger lets
  through (`Tells`).  For each way of reading and transforming the result is that of the function
  without a logger, and the records are those of its trace.
Main exports: Logger.logAll, Logger.written_logAll, Tells, Telling.tells_read,
  Telling.tells_implicationFree, Telling.tells_pullQuantifiers, Telling.tells_freeVariables,
  Telling.tells_renameIn, Telling.tells_rename
-/
import PredicateLogic.Log.Telling
import PredicateLogic.Proofs.NestedBindings

namespace PredicateLogic.Log

/-!
### Many records
-/

namespace Logger

/-- The logger after it was given records one after the other. -/
def logAll (logger : Logger) (records : List Record) : Logger :=
  records.foldl log logger

theorem logAll_append (logger : Logger) (records later : List Record) :
    logger.logAll (records ++ later) = (logger.logAll records).logAll later :=
  List.foldl_append

/-- A logger and a handler with the same threshold write what reaches it, in order. -/
theorem logAll_setThreshold (logger : Logger) (level : Level) (records : List Record) :
    (logger.setThreshold level).logAll records =
      { logger.setThreshold level with
        written := logger.written ++ records.filter level.shows } := by
  induction records generalizing logger with
  | nil => simp [logAll, setThreshold]
  | cons record rest ih =>
      have first : (logger.setThreshold level).log record =
          ({ logger with
            written := logger.written ++ [record].filter level.shows } : Logger).setThreshold
              level := by
        cases shown : level.shows record <;> simp [log, setThreshold, shown]
      calc (logger.setThreshold level).logAll (record :: rest)
          = ((logger.setThreshold level).log record).logAll rest := rfl
        _ = _ := by
            rw [first, ih]
            simp only [setThreshold, List.append_assoc, ← List.filter_append,
              List.singleton_append]

end Logger

/-!
### What work tells
-/

section

variable {α β : Type} {work : Logged α} {next : α → Logged β} {value : α} {result : β}
  {records later : List Record}

/-- Whether work leads to a value and gives records to the logger, whatever the logger lets
through. -/
def Tells (work : Logged α) (value : α) (records : List Record) : Prop :=
  ∀ logger, work logger = (value, logger.logAll records)

theorem tells_pure (value : α) : Tells (pure value) value [] := fun _ => rfl

theorem tells_note (record : Record) : Tells (note record) () [record] := fun _ => rfl

theorem tells_tell (event : Event) : Tells (tell event) () [event.record] := fun _ => rfl

theorem Tells.bind (first : Tells work value records) (rest : Tells (next value) result later) :
    Tells (work >>= next) result (records ++ later) := by
  intro logger
  calc (work >>= next) logger
      = next (work logger).1 (work logger).2 := rfl
    _ = next value (logger.logAll records) := by rw [first logger]
    _ = (result, (logger.logAll records).logAll later) := rest _
    _ = (result, logger.logAll (records ++ later)) := by rw [Logger.logAll_append]

theorem Tells.map (first : Tells work value records) (change : α → β) :
    Tells (do return change (← work)) (change value) records := by
  have both : Tells (do return change (← work)) (change value) (records ++ []) :=
    first.bind (tells_pure _)
  rwa [List.append_nil] at both

end

section

variable {α β ε ε' : Type} {work : LoggedExcept ε α} {next : α → LoggedExcept ε β} {value : α}
  {result : Except ε β} {error : ε} {records later : List Record}

/-- Work that may fail goes on after what succeeds. -/
theorem Tells.andThen (first : Tells work.run (.ok value) records)
    (rest : Tells (next value).run result later) :
    Tells (work >>= next).run result (records ++ later) := by
  have steps : (work >>= next).run = work.run >>= ExceptT.bindCont next := rfl
  rw [steps]
  exact first.bind rest

/-- Work that may fail ends with what fails. -/
theorem Tells.fail (first : Tells work.run (.error error) records) :
    Tells (work >>= next).run (.error error) records := by
  have steps : (work >>= next).run = work.run >>= ExceptT.bindCont next := rfl
  have both : Tells (work.run >>= ExceptT.bindCont next) (.error error) (records ++ []) :=
    first.bind (tells_pure _)
  rwa [steps, ← List.append_nil records]

theorem Tells.mapOk (first : Tells work.run (.ok value) records) (change : α → β) :
    Tells (do return change (← work) : LoggedExcept ε β).run (.ok (change value)) records := by
  have both : Tells (do return change (← work) : LoggedExcept ε β).run (.ok (change value))
      (records ++ []) :=
    first.andThen (tells_pure _)
  rwa [List.append_nil] at both

theorem Tells.mapAnswer {answer : Except ε α} (first : Tells work.run answer records)
    (change : α → β) :
    Tells (do return change (← work) : LoggedExcept ε β).run (answer.map change) records := by
  cases answer with
  | ok value => exact first.mapOk change
  | error error => exact first.fail

theorem Tells.adapt {answer : Except ε α} (first : Tells work.run answer records)
    (change : ε → ε') : Tells (work.adapt change).run (answer.mapError change) records :=
  first.map (Except.mapError change)

theorem tells_lift {plain : Logged α} (first : Tells plain value records) :
    Tells (plain : LoggedExcept ε α).run (.ok value) records :=
  first.map Except.ok

theorem tells_except (answer : Except ε α) : Tells (answer : LoggedExcept ε α).run answer [] :=
  fun _ => rfl

theorem tells_return (value : α) : Tells (pure value : LoggedExcept ε α).run (.ok value) [] :=
  fun _ => rfl

theorem tells_throw (error : ε) : Tells (throw error : LoggedExcept ε α).run (.error error) [] :=
  fun _ => rfl

end

namespace Telling

/-!
### Reading
-/

/-- The first reading of a value gives what it spells, and tells all but the refusal. -/
theorem tells_readFormula (source : Source) :
    ∃ events, Tells (readFormula source).run source.parse (events.map Event.record) ∧
      Trace.read source = events ++
        match source.parse with
        | .ok _ => []
        | .error error => [refusal error] := by
  have start : Tells (tell (.reading source.inserted) : LoggedExcept SourceError Unit).run _ _ :=
    tells_lift (tells_tell _)
  unfold readFormula Trace.read
  cases source.parse with
  | ok f => exact ⟨[_, _], start.andThen ((tells_lift (tells_tell _)).mapOk _), rfl⟩
  | error error =>
      cases error with
      | malformed reason =>
          cases reason with
          | illegalCharacter c position =>
              exact ⟨[_, _], start.andThen ((tells_lift (tells_tell _)).andThen (tells_throw _)),
                rfl⟩
          | _ => exact ⟨[_], start.andThen (tells_throw _), rfl⟩
      | _ => exact ⟨[_], start.andThen (tells_throw _), rfl⟩

/-- Reading a formula with a logger gives what the value spells, and tells what its trace holds. -/
theorem tells_read (source : Source) :
    Tells (read source).run source.parse ((Trace.read source).map Event.record) := by
  obtain ⟨events, first, trace⟩ := tells_readFormula source
  rw [trace, List.map_append]
  cases parsed : source.parse with
  | ok f =>
      rw [parsed] at first
      exact (tells_lift first).andThen (tells_pure _)
  | error error =>
      rw [parsed] at first
      exact (tells_lift first).andThen ((tells_lift (tells_tell _)).andThen (tells_throw _))

/-!
### Transforming
-/

theorem tells_negate (f : Formula) :
    Tells (negate f) f.negate ((Trace.negate f).map Event.record) :=
  (tells_tell _).map fun _ => f.negate

theorem tells_negationNormal (f : Formula) :
    Tells (negationNormal f) f.negationNormal ((Trace.negationNormal f).map Event.record) :=
  (tells_tell _).map fun _ => f.negationNormal

/-- The negations that are passed inward on the way are told where they are. -/
theorem tells_spellOut (f : Formula) :
    Tells (spellOut f) f.implicationFree ((Trace.passedNegations f).map Event.record) := by
  induction f with
  | neg argument span ih => exact ih.map (Formula.neg · span)
  | binary c left right span ihLeft ihRight =>
      cases c with
      | implication =>
          rw [Trace.passedNegations, List.append_assoc, List.map_append, List.map_append]
          exact ihLeft.bind (ihRight.bind ((tells_negate _).map _))
      | conjunction | disjunction =>
          rw [Trace.passedNegations, List.map_append]
          · exact ihLeft.bind (ihRight.map _)
          · exact Connective.noConfusion
  | group body span ih => exact ih.map (Formula.group · span)
  | quantified q v body span ih => exact ih.map (Formula.quantified q v · span)
  | _ => exact tells_pure _

theorem tells_implicationFree (f : Formula) :
    Tells (implicationFree f) f.implicationFree ((Trace.implicationFree f).map Event.record) := by
  rw [Trace.implicationFree, List.map_append]
  exact (tells_spellOut f).bind ((tells_tell _).map _)

/-- Binders are told of where they are pulled out. -/
theorem tells_pull (f : Formula) :
    Tells (pull f) f.pullQuantifiers ((Trace.pulls f).map Event.record) := by
  induction f with
  | neg argument span ih => exact ih.map (Formula.neg · span)
  | binary c left right span ihLeft ihRight =>
      simp only [Trace.pulls, List.append_assoc, List.map_append, Formula.pullQuantifiers]
      refine ihLeft.bind (ihRight.bind ?_)
      cases pulled : Formula.pulls c left.pullQuantifiers right.pullQuantifiers with
      | true => exact (tells_tell _).map _
      | false => exact tells_pure _
  | group body span ih => exact ih.map _
  | quantified q v body span ih => exact ih.map (Formula.quantified q v · span)
  | _ => exact tells_pure _

theorem tells_pullQuantifiers (f : Formula) :
    Tells (pullQuantifiers f) f.pullQuantifiers ((Trace.pullQuantifiers f).map Event.record) := by
  rw [Trace.pullQuantifiers, List.map_append]
  exact (tells_pull f).bind ((tells_tell _).map _)

/-!
### Names
-/

theorem tells_freeVariables (f : Formula) :
    Tells (freeVariables f).run f.freeVariables ((Trace.freeVariables f).map Event.record) := by
  unfold freeVariables Trace.freeVariables
  cases f.freeVariables with
  | error e => exact (tells_except _).fail
  | ok names => exact (tells_except (.ok names)).andThen ((tells_lift (tells_tell _)).mapOk _)

/-- The free variables that are asked for are those that the scope starts with anyway. -/
theorem tells_scopeOf (f : Formula) :
    Tells (scopeOf f).run (Scope.ofFormula f) ((Trace.freeVariables f).map Event.record) := by
  have asked := tells_freeVariables f
  unfold scopeOf Scope.ofFormula
  unfold Trace.freeVariables Formula.freeVariables at asked ⊢
  cases listed : f.nameTable with
  | error e => exact (tells_except _).fail
  | ok table =>
      rw [listed] at asked
      exact (tells_except (.ok _)).andThen (asked.mapOk _)

section

variable {α β : Type}

/-- The scope in which a walk ends, wherever that is. -/
def lastScope : Except Scope (α × Scope) → Scope
  | .ok (_, after) => after
  | .error left => left

/-- Whether a walk from a scope leads to an answer and tells of the names that it replaces: those
that the last scope has recorded behind those of the first. -/
def TellsReplaced (scope : Scope) (walk : LoggedExcept Scope (α × Scope))
    (answer : Except Scope (α × Scope)) : Prop :=
  ∃ fresh : List (String × String),
    Tells walk.run answer (fresh.map fun entry => (Event.renamed entry.1 entry.2).record) ∧
      (lastScope answer).replaced = scope.replaced ++ fresh

namespace TellsReplaced

variable {scope between after left : Scope} {walk : LoggedExcept Scope (α × Scope)} {value : α}
  {next : α × Scope → LoggedExcept Scope (β × Scope)} {answer : Except Scope (β × Scope)}

/-- A step that replaces no name. -/
theorem pure (same : after.replaced = scope.replaced) :
    TellsReplaced scope (Pure.pure (value, after)) (.ok (value, after)) :=
  ⟨[], tells_pure _, same.trans (List.append_nil _).symm⟩

theorem andThen (first : TellsReplaced scope walk (.ok (value, between)))
    (rest : TellsReplaced between (next (value, between)) answer) :
    TellsReplaced scope (walk >>= next) answer := by
  obtain ⟨fresh, told, replaced⟩ := first
  obtain ⟨later, told', replaced'⟩ := rest
  refine ⟨fresh ++ later, ?_, ?_⟩
  · rw [List.map_append]
    exact told.andThen told'
  · rw [replaced', ← List.append_assoc]
    exact congrArg (· ++ later) replaced

theorem fail (first : TellsReplaced scope walk (.error left)) :
    TellsReplaced scope (walk >>= next) (.error left) := by
  obtain ⟨fresh, told, replaced⟩ := first
  exact ⟨fresh, told.fail, replaced⟩

end TellsReplaced

end

/-- A letter that is handed out is told of. -/
theorem tells_choose (scope : Scope) (written : String) :
    TellsReplaced scope ((choose scope written).adapt fun _ => scope)
      ((scope.choose written).mapError fun _ => scope) := by
  unfold choose Scope.choose
  split
  case isTrue known =>
    unfold Scope.takeLetter
    cases scope.letters with
    | nil =>
        refine ⟨[], Tells.adapt ?_ _, (List.append_nil _).symm⟩
        exact (tells_except _).fail
    | cons letter rest =>
        refine ⟨[(written, letter)], Tells.adapt ?_ _, ?_⟩
        · exact (tells_except (.ok _)).andThen ((tells_lift (tells_tell _)).mapOk _)
        · exact congrArg (· ++ [(written, letter)]) (Scope.take_replaced _ _)
  case isFalse unknown =>
    refine ⟨[], (tells_pure _).adapt _, ?_⟩
    exact (Scope.take_replaced _ _).trans (List.append_nil _).symm

/-- Renaming with a logger leads where it leads without one, and tells of the names that are
replaced on the way. -/
theorem tells_renameIn (f : Formula) (scope : Scope) :
    TellsReplaced scope (renameIn scope f) (f.renameIn scope) := by
  induction f generalizing scope with
  | neg argument span ih | group argument span ih =>
      have inner := ih scope
      rw [renameIn, Formula.renameIn]
      cases walked : argument.renameIn scope with
      | error left =>
          rw [walked] at inner
          exact inner.fail
      | ok result =>
          rw [walked] at inner
          exact inner.andThen (.pure rfl)
  | binary c left right span ihLeft ihRight =>
      have first := ihLeft scope
      rw [renameIn, Formula.renameIn]
      cases walked : left.renameIn scope with
      | error stuck =>
          rw [walked] at first
          exact first.fail
      | ok result =>
          have second := ihRight result.2
          rw [walked] at first
          refine first.andThen ?_
          change TellsReplaced _ _ (right.renameIn result.2 >>= _)
          cases walked' : right.renameIn result.2 with
          | error stuck =>
              rw [walked'] at second
              exact second.fail
          | ok result' =>
              rw [walked'] at second
              exact second.andThen (.pure rfl)
  | quantified q v body span ih =>
      have entered := tells_choose scope v.name
      rw [renameIn, Formula.renameIn]
      cases chosen : scope.choose v.name with
      | error e =>
          rw [chosen] at entered
          exact entered.fail
      | ok result =>
          -- Entering a quantifier binds a name but replaces none itself.
          have inner : TellsReplaced result.2 _ _ := ih (result.2.bindName v.name result.1)
          rw [chosen] at entered
          refine entered.andThen ?_
          change TellsReplaced _ _ (body.renameIn (result.2.bindName v.name result.1) >>= _)
          cases walked : body.renameIn (result.2.bindName v.name result.1) with
          | error stuck =>
              rw [walked] at inner
              exact inner.fail
          | ok result' =>
              rw [walked] at inner
              exact inner.andThen (.pure rfl)
  | _ => exact ⟨[], tells_except (.ok _), by simp [Formula.renameIn, lastScope]⟩

theorem replaced_ofFormula {f : Formula} {scope : Scope} (start : Scope.ofFormula f = .ok scope) :
    scope.replaced = [] := by
  obtain ⟨table, -, rfl⟩ := Scope.ofFormula_eq_ok_iff.1 start
  rfl

/-- The records of the names that a scope has replaced are those that its trace holds. -/
theorem map_replacements (scope : Scope) :
    (Trace.replacements scope).map Event.record =
      scope.replaced.map fun entry => (Event.renamed entry.1 entry.2).record :=
  List.map_map

/-- Renaming with a logger has the same result as without one, and tells what its trace holds. -/
theorem tells_rename (f : Formula) :
    Tells (rename f).run f.rename ((Trace.rename f).map Event.record) := by
  have start := tells_scopeOf f
  unfold rename
  cases set : Scope.ofFormula f with
  | error e =>
      have refused : f.rename = .error e := Formula.rename_eq_error.2 (Or.inl set)
      have trace : Trace.rename f = Trace.freeVariables f := by simp [Trace.rename, set]
      rw [set] at start
      rw [refused, trace]
      exact start.fail
  | ok scope =>
      obtain ⟨fresh, told, replaced⟩ := tells_renameIn f scope
      rw [replaced_ofFormula set, List.nil_append] at replaced
      subst replaced
      rw [set] at start
      cases walked : f.renameIn scope with
      | error left =>
          have refused : f.rename = .error .exhausted :=
            Formula.rename_eq_error.2 (Or.inr ⟨_, _, set, walked, rfl⟩)
          have trace : Trace.rename f = Trace.freeVariables f ++ Trace.replacements left := by
            simp [Trace.rename, set, walked]
          rw [walked] at told
          rw [refused, trace, List.map_append, map_replacements]
          exact start.andThen (told.adapt _).fail
      | ok result =>
          have renamed : f.rename = .ok result.1 := by
            simp [Formula.rename, set, walked, bind, Except.bind, pure, Except.pure]
          have trace : Trace.rename f = Trace.freeVariables f ++
              (Trace.replacements result.2 ++ [.ofTransform "rename" f result.1]) := by
            simp [Trace.rename, set, walked]
          rw [walked] at told
          rw [renamed, trace, List.map_append, List.map_append, map_replacements]
          exact start.andThen
            ((told.adapt _).andThen ((tells_lift (tells_tell _)).mapOk fun _ => result.1))

end Telling

end PredicateLogic.Log
