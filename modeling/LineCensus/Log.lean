/-
# The log

Messages about what goes wrong in single places while the rest goes on. They are kept
apart from the report, so that the report stays clean. The log writes to one stream at
a time, and being set up anew it leaves the old stream as it is.
-/

namespace LineCensus

/-- How much a message matters. -/
inductive LogLevel where
  | debug
  | info
  | warning
  | error
  | critical
deriving DecidableEq, Repr

namespace LogLevel

/-- All levels, the least first. -/
def all : List LogLevel := [debug, info, warning, error, critical]

def label : LogLevel → String
  | debug => "DEBUG"
  | info => "INFO"
  | warning => "WARNING"
  | error => "ERROR"
  | critical => "CRITICAL"

def rank : LogLevel → Nat
  | debug => 10
  | info => 20
  | warning => 30
  | error => 40
  | critical => 50

/-- The least level that is written, in detail or not. -/
def threshold (verbose : Bool) : LogLevel := if verbose then debug else info

end LogLevel

/-- A message to the log. -/
structure LogRecord where
  level : LogLevel
  message : String
deriving DecidableEq, Repr

/-- The message as it is written. -/
def LogRecord.text (record : LogRecord) : String :=
  "[mdkloc] " ++ record.level.label ++ " " ++ record.message ++ "\n"

/-- The full name of a logger. The one without a name of its own is above all others. -/
def loggerName (name : String) : String :=
  if name = "" then "mdkloc" else "mdkloc." ++ name

/-- What a sequence of messages writes. -/
def logText (threshold : LogLevel) (records : List LogRecord) : String :=
  String.join ((records.filter fun record => threshold.rank ≤ record.level.rank).map (·.text))

/-- The log with all streams that it ever wrote to. -/
structure Log where
  threshold : LogLevel
  /-- The texts of the streams, the current one first. -/
  streams : List String
deriving DecidableEq, Repr

namespace Log

/-- A log that writes nowhere. -/
def silent : Log := ⟨.info, []⟩

/-- The log with a new stream. -/
def configure (log : Log) (verbose : Bool) : Log := ⟨.threshold verbose, "" :: log.streams⟩

/-- The log with a message written to the current stream. -/
def write (log : Log) (record : LogRecord) : Log :=
  match log.streams with
  | [] => log
  | current :: others => { log with streams := (current ++ logText log.threshold [record]) :: others }

end Log

end LineCensus
