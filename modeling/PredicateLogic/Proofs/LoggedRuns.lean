/-
Module: PredicateLogic.Proofs.LoggedRuns
Purpose: A run with a logger comes to what is worked out for it without one.
  The operations of a command, the reading before them and the message at the end lead to the same
  result and give the same records whatever the logger lets through (`tells_carryOut`).  So what is
  seen of a command is its outcome, with the records that reach the threshold its flags ask for
  (`respond_eq`).
Main exports: tells_performAll, tells_attempt, tells_carryOut, session_eq, respond_eq
-/
import PredicateLogic.Proofs.RunOutcomes
import PredicateLogic.Proofs.ToldEvents

namespace PredicateLogic.CommandLine

open Log

/-!
### Operations
-/

/-- An operation tells what its trace holds. -/
theorem tells_performReported (operation : Operation) (f : Formula) :
    Tells (performReported operation f).run (operation.report f)
      ((operation.trace f).map Event.record) := by
  cases operation with
  | negate => exact (tells_lift (Telling.tells_negate f)).mapOk _
  | negationNormal => exact (tells_lift (Telling.tells_negationNormal f)).mapOk _
  | implicationFree => exact (tells_lift (Telling.tells_implicationFree f)).mapOk _
  | pullQuantifiers => exact (tells_lift (Telling.tells_pullQuantifiers f)).mapOk _
  | rename => exact (Telling.tells_rename f).mapAnswer _
  | print => exact (tells_return f).mapOk _
  | nameTable => exact (tells_except f.nameTable).mapAnswer _
  | freeVariables => exact (Telling.tells_freeVariables f).mapAnswer _

/-- Operations tell what the traces of those that are reached hold. -/
theorem tells_performAll (f : Formula) (operations : List (Option Operation)) :
    Tells (performAll f operations).run (answerTo f operations)
      ((Operation.traces f (namedOperations operations)).map Event.record) := by
  induction operations generalizing f with
  | nil => exact tells_return []
  | cons first rest ih =>
      cases first with
      | none => exact tells_throw _
      | some operation =>
          have one := tells_performReported operation f
          rw [performAll, namedOperations, Operation.traces, List.map_append]
          cases reported : operation.report f with
          | error e =>
              rw [reported] at one
              rw [answerTo_cons_error reported, List.map_nil, List.append_nil]
              exact (one.adapt _).fail
          | ok result =>
              rw [reported] at one
              rw [answerTo_cons reported]
              exact (one.adapt _).andThen ((ih result.1).mapAnswer _)

/-!
### Runs
-/

/-- The result of a run and the records that it gives are those that its outcome is made of. -/
theorem tells_attempt (read : Path → Except FileError String) (request : Arguments) :
    ∃ result records, Tells (attempt read request.source request.chain).run result records ∧
      execute read request = outcomeOf records result := by
  rw [execute_eq]
  unfold attempt
  cases handedIn read request.source with
  | error failure => exact ⟨_, [], (tells_except _).fail, rfl⟩
  | ok source =>
      have loaded : Tells (note (.ofLevel .info ("Formula loaded: " ++ source.inserted)) :
          LoggedExcept Failure Unit).run _ _ :=
        tells_lift (tells_note _)
      have reading := (Telling.tells_read source).adapt Failure.reading
      simp only [executeSource]
      cases parsed : source.parse with
      | error e =>
          rw [parsed] at reading
          exact ⟨_, _, (tells_except (.ok source)).andThen (loaded.andThen reading.fail), rfl⟩
      | ok f =>
          rw [parsed] at reading
          refine ⟨_, _, (tells_except (.ok source)).andThen (loaded.andThen (reading.andThen ?_)),
            executeFormula_eq _ _ _⟩
          exact tells_performAll f request.chain

theorem tells_conclude (records : List Record) (result : Except Failure (List String)) :
    ∃ last, Tells (conclude result) ((outcomeOf records result).map Outcome.ending) last ∧
      ∀ outcome, outcomeOf records result = .ok outcome → outcome.records = records ++ last := by
  cases result with
  | ok lines =>
      refine ⟨[], tells_pure _, ?_⟩
      rintro _ ⟨⟩
      exact (List.append_nil _).symm
  | error failure =>
      cases failure with
      | brokenOff breakdown => exact ⟨[], tells_pure _, by rintro _ ⟨⟩⟩
      | _ =>
          refine ⟨[_], (tells_note _).map _, ?_⟩
          rintro _ ⟨⟩
          rfl

/-- A run ends as its outcome says and gives the records of its outcome, whatever the logger lets
through. -/
theorem tells_carryOut (read : Path → Except FileError String) (request : Arguments) :
    ∃ records, Tells (carryOut read request.source request.chain)
        ((execute read request).map Outcome.ending) records ∧
      ∀ outcome, execute read request = .ok outcome → outcome.records = records := by
  obtain ⟨result, records, told, account⟩ := tells_attempt read request
  obtain ⟨last, concluded, complete⟩ := tells_conclude records result
  rw [account]
  exact ⟨records ++ last, told.bind concluded, complete⟩

/-!
### Sessions
-/

/-- The session of a command that is understood: of the records that a run gives, those that reach
the threshold of its flags are written, whatever the logger let through before. -/
theorem session_eq {read : Path → Except FileError String} {logger : Logger}
    {arguments : List String} {request : Arguments} {ending : Except Breakdown Ending}
    {records : List Record}
    (understood : Arguments.parse arguments = .ok request)
    (told : Tells (carryOut read request.source request.chain) ending records) :
    session read logger arguments =
      .ok { ending := ending
            written := records.filter (Level.threshold request.verbose request.debug).shows } := by
  let threshold := Level.threshold request.verbose request.debug
  have ran : run read request { logger with written := [] } =
      (ending, { logger.setThreshold threshold with written := records.filter threshold.shows }) :=
    calc run read request { logger with written := [] }
      _ = carryOut read request.source request.chain
            (({ logger with written := [] } : Logger).setThreshold threshold) := rfl
      _ = (ending, (({ logger with written := [] } : Logger).setThreshold threshold).logAll
            records) := told _
      _ = _ := by rw [Logger.logAll_setThreshold]; rfl
  simp only [session, understood, bind, Except.bind, ran]
  rfl

/-- What is seen of a command is its outcome, with the records that reach its threshold. -/
theorem respond_eq (read : Path → Except FileError String) (arguments : List String) :
    respond read arguments =
      match Arguments.parse arguments with
      | .error stop => .stopped stop
      | .ok request =>
          match execute read request with
          | .error breakdown => .broken breakdown
          | .ok outcome =>
              let threshold := Level.threshold request.verbose request.debug
              .ran outcome.exitCode (outputText outcome.lines)
                (threshold.write outcome.records) := by
  unfold respond
  cases understood : Arguments.parse arguments with
  | error stop => simp only [session, understood, bind, Except.bind]
  | ok request =>
      obtain ⟨records, told, complete⟩ := tells_carryOut read request
      rw [session_eq understood told]
      cases executed : execute read request with
      | error breakdown => simp only [executed, Except.map]
      | ok outcome =>
          rw [← complete outcome executed]
          simp only [executed, Except.map]
          rfl

end PredicateLogic.CommandLine
