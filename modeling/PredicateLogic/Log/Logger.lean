/-
Module: PredicateLogic.Log.Logger
Purpose: The logger that records are given to while something is done.
Main exports:
  Logger, Logger.log, Logger.configure, Logged, LoggedExcept, note, tell
-/
import PredicateLogic.Log.Event

namespace PredicateLogic.Log

/-!
### Loggers

A record passes two thresholds on its way, that of the logger and that of the handler behind it.
They are set together.
-/

/-- A logger with its handler, and what the handler has written. -/
structure Logger where
  /-- The threshold of the logger. -/
  threshold : Level := .warning
  /-- The threshold of the handler. -/
  handlerThreshold : Level := .warning
  /-- The records that were written, in order. -/
  written : List Record := []
deriving Repr, DecidableEq

namespace Logger

/-- The logger after it was given a record.  The handler gets what the logger lets through, and
writes what reaches its own threshold. -/
def log (logger : Logger) (record : Record) : Logger :=
  if logger.threshold.shows record && logger.handlerThreshold.shows record then
    { logger with written := logger.written ++ [record] }
  else
    logger

/-- The logger with another threshold, which its handler gets as well. -/
def setThreshold (logger : Logger) (level : Level) : Logger :=
  { logger with threshold := level, handlerThreshold := level }

/-- The logger with the threshold that the flags of a command ask for. -/
def configure (logger : Logger) (verbose debug : Bool) : Logger :=
  logger.setThreshold (.threshold verbose debug)

end Logger

/-!
### Logged work

What is done with a logger at hand may give records to it at any time, and what fails leaves the
records that it gave before.
-/

/-- Work that leads to a result and gives records to a logger on the way. -/
abbrev Logged (α : Type) := StateM Logger α

/-- Logged work that may fail. -/
abbrev LoggedExcept (ε α : Type) := ExceptT ε (StateM Logger) α

/-- Gives a record to the logger. -/
def note (record : Record) : Logged Unit :=
  modify (·.log record)

/-- Tells an event. -/
def tell (event : Event) : Logged Unit :=
  note event.record

end PredicateLogic.Log
