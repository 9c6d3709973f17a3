/-
Module: PredicateLogic.Proofs.LogThresholds
Purpose: What a command is asked to tell of its run makes no difference to the run.
  The flags of a command set the thresholds of the logger and nothing else, so a run ends the same
  way with them and without, and a higher threshold leaves records out but changes none
  (`session_thresholds`).  A flag may stand in front of any command that is understood
  (`parse_verbose`, `parse_debug`).
Main exports: Collected.flagged, parse_verbose, parse_debug, session_thresholds
-/
import Mathlib.Control.Monad.Basic
import PredicateLogic.Proofs.LoggedRuns

namespace PredicateLogic.CommandLine

open Log

/-!
### Flags in front of a command
-/

namespace Collected

/-- What the words so far ask for, with flags set beside those that are set already. -/
def flagged (verbose debug : Bool) (state : Collected) : Collected :=
  { state with verbose := state.verbose || verbose, debug := state.debug || debug }

variable {verbose debug : Bool}

theorem act_flagged (state : Collected) (action : Action) :
    (state.flagged verbose debug).act action = (state.act action).map (flagged verbose debug) := by
  cases action with
  | help => rfl
  | verbose => simp [act, flagged, Except.map]
  | debug => simp [act, flagged, Except.map]
  | operation name =>
      cases name with
      | none => rfl
      | some name =>
          simp only [act]
          cases Operation.ofName? name <;> rfl
  | file path =>
      by_cases named : state.text.isSome = true <;> simp [act, flagged, named, Except.map]

theorem actAll_flagged (state : Collected) (actions : List Action) :
    (state.flagged verbose debug).actAll actions =
      (state.actAll actions).map (flagged verbose debug) := by
  induction actions generalizing state with
  | nil => rfl
  | cons action rest ih =>
      rw [actAll, actAll, act_flagged]
      cases state.act action with
      | error stop => rfl
      | ok next => exact ih next

theorem place_flagged (state : Collected) (text : Option String) :
    (state.flagged verbose debug).place text = (state.place text).map (flagged verbose debug) := by
  by_cases refused : (text.isSome && state.file.isSome) = true <;>
    simp [place, flagged, refused, Except.map]

/-- What follows a step goes on with the flags that were set before it. -/
theorem bind_flagged {step step' : Except Stop Collected} {words : List Word}
    (same : step' = step.map (flagged verbose debug))
    (rest : ∀ next : Collected, (next.flagged verbose debug).collect words =
      (next.collect words).map (flagged verbose debug)) :
    (step' >>= fun next => next.collect words) =
      (step >>= fun next => next.collect words).map (flagged verbose debug) := by
  rw [same]
  cases step with
  | error stop => rfl
  | ok next => exact rest next

/-- Flags that are set before any words are still set behind them, and make no other difference. -/
theorem collect_flagged (state : Collected) (words : List Word) :
    (state.flagged verbose debug).collect words =
      (state.collect words).map (flagged verbose debug) := by
  fun_induction Collected.collect state words with
  | case1 state =>
      rw [collect]
      rfl
  | case2 state name value rest ih =>
      rw [collect]
      cases readOption rest name value with
      | error stop => rfl
      | ok reading => exact bind_flagged (actAll_flagged state reading.actions) (ih reading)
  | case3 state name attached rest ih =>
      rw [collect]
      cases readCluster rest name attached with
      | error stop => rfl
      | ok reading => exact bind_flagged (actAll_flagged state reading.actions) (ih reading)
  | case4 state rest ih =>
      rw [collect]
      exact ih
  | case5 state word rest notOption notCluster known placed ih =>
      rw [collect.eq_def]
      cases word with
      | option name value => exact (notOption name value rfl).elim
      | cluster name attached => exact (notCluster name attached rfl).elim
      | unknown => exact (known rfl).elim
      | plain text | terminator => exact (if_pos placed).trans ih
  | case6 state unplaced text rest _ _ _ ih =>
      rw [collect]
      exact (if_neg unplaced).trans (bind_flagged (place_flagged state _) ih)
  | case7 state unplaced text rest notEnd _ _ _ ih =>
      rw [collect]
      · exact (if_neg unplaced).trans (bind_flagged (place_flagged state _) ih)
      · exact notEnd
  | case8 state word _ _ _ unplaced text rest _ ih =>
      rw [collect]
      · exact (if_neg unplaced).trans (bind_flagged (place_flagged state _) ih)
      all_goals assumption
  | case9 state word _ _ _ unplaced rest _ _ _ ih =>
      rw [collect]
      · exact (if_neg unplaced).trans (bind_flagged (place_flagged state _) ih)
      all_goals assumption

theorem finish_flagged (state : Collected) :
    (state.flagged verbose debug).finish =
      state.finish.map fun request =>
        { request with
          verbose := request.verbose || verbose
          debug := request.debug || debug } := by
  have leftover : (state.flagged verbose debug).leftover = state.leftover := rfl
  have source : (state.flagged verbose debug).source? = state.source? := rfl
  rw [finish, finish, leftover, source]
  cases state.leftover <;> cases state.source? <;> rfl

end Collected

/-- An argument that is a flag by itself is set beside the flags of the others. -/
theorem parse_flag {argument : String} {name : OptionName} {verbose debug : Bool}
    (notEnd : argument ≠ "--") (alone : Word.ofArgument argument = .ok (.option name none))
    (sets : ∀ words, Collected.collect {} (.option name none :: words) =
      (Collected.flagged verbose debug {}).collect words)
    (arguments : List String) :
    Arguments.parse (argument :: arguments) =
      (Arguments.parse arguments).map fun request =>
        { request with
          verbose := request.verbose || verbose
          debug := request.debug || debug } := by
  unfold Arguments.parse
  rw [Word.ofArguments]
  · rw [alone]
    cases Word.ofArguments arguments with
    | error stop => rfl
    | ok words =>
        change (Collected.collect {} (.option name none :: words) >>= Collected.finish) =
          Except.map _ (Collected.collect {} words >>= Collected.finish)
        rw [sets, Collected.collect_flagged]
        cases Collected.collect {} words with
        | error stop => rfl
        | ok collected => exact collected.finish_flagged
  · exact notEnd

/-- A command is understood with the flag for information in front as it is without. -/
theorem parse_verbose (arguments : List String) :
    Arguments.parse ("-v" :: arguments) =
      (Arguments.parse arguments).map fun request => { request with verbose := true } := by
  have alone : Word.ofArgument "-v" = .ok (.option .verbose none) := by rfl
  have sets : ∀ words, Collected.collect {} (.option .verbose none :: words) =
      (Collected.flagged true false {}).collect words := by
    intro words
    rw [Collected.collect]
    rfl
  simpa only [Bool.or_true, Bool.or_false] using parse_flag (by decide) alone sets arguments

/-- A command is understood with the flag for debugging in front as it is without. -/
theorem parse_debug (arguments : List String) :
    Arguments.parse ("--debug" :: arguments) =
      (Arguments.parse arguments).map fun request => { request with debug := true } := by
  have alone : Word.ofArgument "--debug" = .ok (.option .debug none) := by rfl
  have sets : ∀ words, Collected.collect {} (.option .debug none :: words) =
      (Collected.flagged false true {}).collect words := by
    intro words
    rw [Collected.collect]
    rfl
  simpa only [Bool.or_true, Bool.or_false] using parse_flag (by decide) alone sets arguments

/-!
### Thresholds
-/

/-- What a higher threshold shows is shown by a lower one before. -/
theorem filter_shows {low high : Level} (le : low.value ≤ high.value) (records : List Record) :
    (records.filter low.shows).filter high.shows = records.filter high.shows := by
  rw [List.filter_filter]
  apply List.filter_congr
  intro record _
  cases shown : high.shows record with
  | true => simpa using Level.shows_of_le le shown
  | false => rfl

/-- The flags of a command make no difference but for the records that are written.  Where a command
with neither flag is understood, it is understood with either of them, and whatever the logger let
through before, the run ends the same way, with the same exit code and the same lines, or breaks off
for the same reason.  Of the records that are written with the flag for debugging, those of the
level of information and above are written with the flag for information, and those of the level of
warnings and above with neither. -/
theorem session_thresholds (read : Path → Except FileError String) {arguments : List String}
    {request : Arguments} (understood : Arguments.parse arguments = .ok request)
    (quiet : request.verbose = false) (plain : request.debug = false) :
    Arguments.parse ("-v" :: arguments) = .ok { request with verbose := true } ∧
      Arguments.parse ("--debug" :: arguments) = .ok { request with debug := true } ∧
      ∃ ending records,
        (∀ logger, session read logger arguments =
          .ok { ending := ending, written := records.filter Level.warning.shows }) ∧
        (∀ logger arguments', Arguments.parse arguments' = .ok { request with verbose := true } →
          session read logger arguments' =
            .ok { ending := ending, written := records.filter Level.info.shows }) ∧
        ∀ logger arguments' verbose,
          Arguments.parse arguments' = .ok { request with verbose := verbose, debug := true } →
            session read logger arguments' = .ok { ending := ending, written := records } := by
  obtain ⟨given, told, -⟩ := tells_carryOut read request
  refine ⟨?_, ?_, (execute read request).map Outcome.ending, given.filter Level.debug.shows, ?_, ?_,
    ?_⟩
  · rw [parse_verbose, understood]
    rfl
  · rw [parse_debug, understood]
    rfl
  · intro logger
    rw [session_eq understood told, quiet, plain, filter_shows (by decide)]
    rfl
  · intro logger arguments' understood'
    rw [session_eq understood' told, filter_shows (by decide)]
    simp only [plain]
    rfl
  · intro logger arguments' verbose understood'
    exact session_eq understood' told

/-- The request to negate `f(x) | g(f)` and then to list its names, which are in conflict. -/
def negatedThenListed : Arguments :=
  { source := .text "f(x) | g(f)", operations := [some .negate, some .nameTable] }

/-- The flags may stand anywhere among the arguments, and that for debugging wins. -/
theorem session_thresholds_negatedThenListed :
    Arguments.parse ["f(x) | g(f)", "--op", "negate", "--op", "names"] = .ok negatedThenListed ∧
      negatedThenListed.verbose = false ∧ negatedThenListed.debug = false ∧
      ∃ ending records,
        (∀ logger, session (Directory.ofFiles []).read logger
            ["f(x) | g(f)", "--op", "negate", "--op", "names"] =
          .ok { ending := ending, written := records.filter Level.warning.shows }) ∧
        (∀ logger, session (Directory.ofFiles []).read logger
            ["f(x) | g(f)", "--op", "negate", "--verb", "--op", "names"] =
          .ok { ending := ending, written := records.filter Level.info.shows }) ∧
        ∀ logger, session (Directory.ofFiles []).read logger
            ["--debug", "f(x) | g(f)", "--op", "negate", "--op", "names", "-v"] =
          .ok { ending := ending, written := records } := by
  have understood : Arguments.parse ["f(x) | g(f)", "--op", "negate", "--op", "names"] =
      .ok negatedThenListed := by
    decide +kernel
  have informed :
      Arguments.parse ["f(x) | g(f)", "--op", "negate", "--verb", "--op", "names"] =
        .ok { negatedThenListed with verbose := true } := by
    decide +kernel
  have debugged :
      Arguments.parse ["--debug", "f(x) | g(f)", "--op", "negate", "--op", "names", "-v"] =
        .ok { negatedThenListed with verbose := true, debug := true } := by
    decide +kernel
  obtain ⟨-, -, ending, records, quiet, information, everything⟩ :=
    session_thresholds (Directory.ofFiles []).read understood rfl rfl
  exact ⟨understood, rfl, rfl, ending, records, quiet,
    fun logger => information logger _ informed,
    fun logger => everything logger _ true debugged⟩

end PredicateLogic.CommandLine
