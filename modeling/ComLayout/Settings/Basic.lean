import ComLayout.Discovery
import ComLayout.Value.Basic

/-!
# Settings

The settings of a run, by sections. Values are kept as they were given, whatever their kind; what does
not suit its use fails there. The formats alone are checked beforehand, since reports are written for
them.
-/

namespace ComLayout

/-- The formats in which a report can be written. -/
inductive ReportFormat where
  | json
  | csv
  | markdown
deriving DecidableEq, Repr

namespace ReportFormat

/-- The name of a format, which is also the ending of its files. -/
def name : ReportFormat → String
  | .json => "json"
  | .csv => "csv"
  | .markdown => "md"

/-- The format of a name; one format has two. -/
def ofName? (s : String) : Option ReportFormat :=
  if s = "json" then some .json
  else if s = "csv" then some .csv
  else if s = "md" ∨ s = "markdown" then some .markdown
  else none

/-- The name of a format leads back to it. -/
theorem ofName_name (format : ReportFormat) : ofName? format.name = some format := by
  cases format <;> rfl

end ReportFormat

/-- What to look up. -/
structure LookupSettings where
  interface : Value
  recurse : Value

/-- Which headers to leave out. -/
structure FileSettings where
  exclude : Value
  maxFileBytes : Value

/-- Which reports to write, and where. -/
structure OutputSettings where
  formats : List ReportFormat
  outDir : Value
  outPrefix : Value
  overwrite : Value

/-- What to tell on the way. -/
structure LoggingSettings where
  progress : Value
  quiet : Value
  verbose : Value
  logFile : Value
  statusHandle : Value

/-- The settings of a run. -/
structure Settings where
  path : Value
  configPath : Value
  dryRun : Value
  lookup : LookupSettings
  files : FileSettings
  output : OutputSettings
  logging : LoggingSettings

end ComLayout
