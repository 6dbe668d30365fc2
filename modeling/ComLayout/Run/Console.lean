import ComLayout.Files.Change
import ComLayout.Log
import ComLayout.Settings.Fault
import ComLayout.StatusLine
import ComLayout.Text.Encoding
import ComLayout.Vtable.Lookup

/-!
# What a run does to its surroundings

A run reads and changes a file tree, and writes to an output and an error stream. Log records that are
important enough go to the error stream, and also to the log file if there is one. The status line
shares the error stream with them. A run that fails keeps what it has done until then.

The output may refuse a line that its encoding cannot show. The error stream never does: it puts a number in
place of a character that it cannot show, and what stands here is the text that is handed to it. Files are
written in UTF-8, which every text has.
-/

namespace ComLayout.Run

/-- What a run starts from: the file tree, the working and the home directory, the variables of the
environment, whether the error stream is a terminal, and the time, as log lines and reports show it. -/
structure Surroundings where
  tree : Tree
  working : List String
  home : Path
  environment : List (String × String)
  terminal : Bool
  logTime : String
  reportTime : String

/-- Surroundings with an output, which has an encoding. -/
structure Scene extends Surroundings where
  encoding : Encoding := .utf8

/-- Where nothing else is said, the output shows every text. -/
instance : Coe Surroundings Scene := ⟨fun around => { around with }⟩

/-- The state of a run: the tree, what was written, the status line, where log records go, and what the output
can show. -/
structure Console where
  tree : Tree
  output : String
  errors : String
  status : StatusLine
  threshold : LogLevel
  logFile : Option Path
  logTime : String
  encoding : Encoding

/-- Why a run fails: the lookup failed, the command was not used properly, or something broke. -/
inductive Failure where
  | lookup (error : LookupError)
  | usage (message : String)
  | broken (cause : String)
deriving DecidableEq, Repr

/-- A part of a run. -/
abbrev Action := ExceptT Failure (StateM Console)

namespace Console

/-- The state at the start of a run. -/
def start (around : Scene) : Console :=
  ⟨around.tree, "", "", StatusLine.new false, .info, none, around.logTime, around.encoding⟩

/-- Write a line to the output. -/
def print (console : Console) (line : String) : Console :=
  { console with output := console.output ++ line ++ "\n" }

/-- Write a line to the error stream. -/
def complain (console : Console) (line : String) : Console :=
  { console with errors := console.errors ++ line ++ "\n" }

/-- The line that a record adds to the log; none if it is not important enough. -/
def logLine (console : Console) (record : LogRecord) : String :=
  if record.reaches console.threshold then record.line console.logTime else ""

/-- The tree after a text was appended to the log file. A log file that cannot be written is left. -/
def logged (console : Console) (text : String) : Tree :=
  match console.logFile with
  | none => console.tree
  | some path => (console.tree.append path text.toUTF8).toOption.getD console.tree

/-- Log a record if it is important enough. -/
def log (console : Console) (record : LogRecord) : Console :=
  if record.reaches console.threshold then
    let line := console.logLine record
    { console with errors := console.errors ++ line, tree := console.logged line }
  else console

/-- What the events of a lookup add to the log. -/
def logLines (console : Console) (events : List LookupEvent) : String :=
  String.join (events.map fun event => match event with
    | .remark record => console.logLine record
    | _ => "")

/-- How a lookup reads headers: what is logged meanwhile is found in the log file. -/
def reading (console : Console) : Lookup.Reading := fun events c =>
  let isLog := match console.logFile with
    | none => false
    | some path => (console.tree.locate path).toOption == some c.place
  let bytes := Lookup.Reading.ofTree console.tree events c
  if isLog then bytes ++ (console.logLines events).toUTF8 else bytes

/-- Make a call on the status line. -/
def callStatus (console : Console) (call : StatusCall) : Console :=
  let (status, written) := console.status.call call
  { console with status, errors := console.errors ++ String.ofList written }

end Console

namespace Action

/-- Fail because something broke. -/
def broken {α : Type} (cause : String) : Action α := throw (.broken cause)

/-- The words for what is wrong with a file. -/
def fileWords : FileFault → String
  | .notFound => "No such file or directory"
  | .isDirectory => "Is a directory"
  | .notDirectory => "Not a directory"
  | .alreadyExists => "File exists"
  | .tooLong => "File name too long"
  | .tooDeep => "Too many directories one below the other"
  | .zeroCharacter => "embedded null byte"

/-- Fail because of a file; a path that is refused was not used properly. -/
def failFile {α : Type} (fault : FileFault) : Action α :=
  match fault.message? with
  | some message => throw (.usage message)
  | none => broken (fileWords fault)

/-- Change the tree; a fault ends the run, and what was changed before it stays. -/
def changeTree (change : Tree → Except FileFault Unit × Tree) : Action Unit := do
  let console ← get
  let (result, tree) := change console.tree
  set { console with tree }
  match result with
  | .ok () => pure ()
  | .error fault => failFile fault

/-- Write a line to the output. A line that the output cannot show is not written, and the command was not used
properly. -/
def print (line : String) : Action Unit := do
  match (← get).encoding.refusal? line with
  | none => modify (·.print line)
  | some message => throw (.usage message)

/-- Log a record. -/
def log (record : LogRecord) : Action Unit := modify (·.log record)

/-- Make a call on the status line. -/
def callStatus (call : StatusCall) : Action Unit := modify (·.callStatus call)

/-- Fail because headers could not be listed. -/
def failDiscovery {α : Type} : DiscoveryFault → Action α
  | .file fault => failFile fault
  | .rule .emptyPattern => throw (.usage "empty pattern")
  | .rule (.malformed _) => broken "An exclusion rule is not a text"
  | .malformedLimit => broken "The size limit is not a number"

/-- Fail as a search failed. -/
def failSearch {α : Type} : SearchFault → Action α
  | .lookup .nameRequired => throw (.usage LookupError.nameRequired.message)
  | .lookup error => throw (.lookup error)
  | .discovery fault => failDiscovery fault

end Action

/-- How a run ends: it returns, it exits with a code, or a fault escapes. -/
inductive Ending where
  | returned
  | exited (code : Nat)
  | settingsFault (fault : SettingsFault)
  | searchFault (fault : SearchFault)
deriving DecidableEq, Repr

/-- What a run leaves behind. -/
structure Outcome where
  ending : Ending
  output : String
  errors : String
  tree : Tree

/-- The outcome of a run that ends in a state. -/
def Console.outcome (console : Console) (ending : Ending) : Outcome :=
  ⟨ending, console.output, console.errors, console.tree⟩

end ComLayout.Run
