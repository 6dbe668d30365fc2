/-!
# Log records

A record has a level, the name of the part that made it, and a text.
-/

namespace ComLayout

/-- How important a record is. -/
inductive LogLevel where
  | debug
  | info
  | warning
deriving DecidableEq, Repr

/-- The name of a level. -/
def LogLevel.label : LogLevel → String
  | .debug => "DEBUG"
  | .info => "INFO"
  | .warning => "WARNING"

/-- The rank of a level. -/
def LogLevel.rank : LogLevel → Nat
  | .debug => 0
  | .info => 1
  | .warning => 2

/-- A record. -/
structure LogRecord where
  level : LogLevel
  source : String
  text : String
deriving DecidableEq, Repr

/-- Whether a record is important enough for a threshold. -/
def LogRecord.reaches (record : LogRecord) (threshold : LogLevel) : Bool :=
  threshold.rank ≤ record.level.rank

/-- The line for a record, with the time at which it was made. -/
def LogRecord.line (record : LogRecord) (time : String) : String :=
  time ++ " " ++ record.level.label ++ " " ++ record.source ++ ": " ++ record.text ++ "\n"

end ComLayout
