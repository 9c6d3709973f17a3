/-
Module: PredicateLogic.Log.Record
Purpose: Messages with levels, and which of them are written.
Main exports:
  Level, Record, Record.line, Level.write
-/

namespace PredicateLogic.Log

/-!
### Levels

A level is a number that says how important a message is.  Four levels have names under which they
can be chosen, and one of them is the threshold from which on messages are written.
-/

/-- The levels that can be chosen. -/
inductive Level where
  | debug
  | info
  | warning
  | error
deriving Repr, DecidableEq

namespace Level

/-- The number of a level. -/
def value : Level → Int
  | .debug => 10
  | .info => 20
  | .warning => 30
  | .error => 40

/-- The name of a level. -/
def label : Level → String
  | .debug => "DEBUG"
  | .info => "INFO"
  | .warning => "WARNING"
  | .error => "ERROR"

/-- The level with the given name. -/
def ofLabel? (text : String) : Option Level :=
  [debug, info, warning, error].find? fun level => level.label == text

/-- The threshold of a run: debugging shows everything, and goes before being verbose, which shows
information. -/
def threshold (verbose debug : Bool) : Level :=
  if debug then .debug else if verbose then .info else .warning

end Level

/-!
### Records

Records from the level of information upward are written as their message alone; below it the
message follows a mark that names the level, by its number if it has no name.  Level zero has one
too: it is the level of a record for which none was set.
-/

/-- A message and the number of its level. -/
structure Record where
  level : Int
  message : String
deriving Repr, DecidableEq

namespace Record

/-- A record at one of the named levels. -/
def ofLevel (level : Level) (message : String) : Record :=
  { level := level.value, message := message }

/-- The mark in front of a message, by level. -/
def mark (level : Int) : String :=
  if Level.info.value ≤ level then ""
  else if level = Level.debug.value then "[DEBUG] "
  else if level = 0 then "[NOTSET] "
  else "[Level " ++ level.repr ++ "] "

/-- The line that a record is written as. -/
def line (record : Record) : String :=
  mark record.level ++ record.message ++ "\n"

end Record

/-- Whether a record is written at a threshold. -/
def Level.shows (threshold : Level) (record : Record) : Bool :=
  decide (threshold.value ≤ record.level)

/-- The text that is written for records at a threshold, in order. -/
def Level.write (threshold : Level) (records : List Record) : String :=
  String.join ((records.filter threshold.shows).map Record.line)

/-- A lower threshold shows whatever a higher one does. -/
theorem Level.shows_of_le {low high : Level} (le : low.value ≤ high.value) {record : Record}
    (shown : high.shows record = true) : low.shows record = true := by
  simp only [Level.shows, decide_eq_true_eq] at shown ⊢
  exact Int.le_trans le shown

end PredicateLogic.Log
