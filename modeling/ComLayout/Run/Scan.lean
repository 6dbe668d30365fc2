import ComLayout.CommandLine.Commands
import ComLayout.Report.Csv
import ComLayout.Report.Document
import ComLayout.Report.Listing
import ComLayout.Report.Markdown
import ComLayout.Run.Console
import ComLayout.Run.Filter
import ComLayout.Settings.Resolve
import ComLayout.Vtable.Progress

/-!
# The lookup command

A dry run prints the headers that would be searched. Otherwise the places of the reports are settled,
the vtable is looked up, and it is written to the reports or printed if there are none. The exit code is
0 after success, 1 if the lookup failed, 2 if the command was not used properly, and 3 if something
broke. A log file that cannot be opened, and settings that cannot be put together for a reason that is
not reported, end the run without a code. An output that cannot show a line leads to the code 2 as well.

Reports and log files are those of the tree below the working directory; a run that is sent to other places is not
covered.
-/

namespace ComLayout.Run

open CommandLine

/-- The source of the command's own log records. -/
def source : String := "vtabscan"

/-- The least level of the records that are logged. -/
def threshold (logging : LoggingSettings) : LogLevel :=
  if logging.quiet.truthy then .warning else if logging.verbose.truthy then .debug else .info

/-- The path of the log file. Its spelling ends before the character with the code zero, which only its
directory must not hold. -/
def logPath (spelling : String) : Path :=
  Path.ofString (String.ofList (spelling.toList.takeWhile (· != '\x00')))

/-- Open the log file, which makes it and its directories if they are missing. -/
def openLog (tree : Tree) (logFile : Value) : Except SettingsFault (Option Path) × Tree :=
  if !logFile.truthy then (.ok none, tree)
  else match logFile with
    | .text spelling =>
      let path := logPath spelling
      let (result, tree) :=
        tree.inItsDirectory (Path.ofString spelling) fun tree => tree.append path ByteArray.empty
      ((result.mapError .file).map fun _ => some path, tree)
    | _ => (.error .wrongKind, tree)

/-- The pattern to search by, which has to be a text. -/
def patternOf (settings : Settings) : Action String :=
  match settings.path with
  | .text pattern => pure pattern
  | _ => Action.broken "The path is not a text"

/-- The filter that the settings give. -/
def filterOf (files : FileSettings) : Filter :=
  ⟨Filter.rulesOf files.exclude, Filter.limitOf files.maxFileBytes⟩

/-- Print the headers that would be searched. -/
def listHeaders (settings : Settings) : Action Unit := do
  let pattern ← patternOf settings
  let filter := filterOf settings.files
  match Discovery.discover (← get).tree pattern settings.lookup.recurse.truthy filter with
  | .error fault => Action.failDiscovery fault
  | .ok [] => Action.log ⟨.warning, source, "No headers matched " ++ pattern⟩
  | .ok found => found.forM fun c => Action.print c.path.toString

/-- A path below a directory; an anchored one stands for itself. -/
def below (dir path : Path) : Path := if path.anchor = .none then dir.append path.names else path

/-- The path of the report in a format. -/
def reportPath (dir : Path) (outPrefix : Value) (format : ReportFormat) : Action Path :=
  match outPrefix.display? with
  | some front => pure (below dir (Path.ofString (front ++ "." ++ format.name)))
  | none => throw (.usage (Value.digitLimitMessage none))

/-- The reports of the given formats, each format once. What is in the way of a report is replaced only
if that is allowed. -/
def reportsAt (dir : Path) (output : OutputSettings) :
    List ReportFormat → Action (List (ReportFormat × Path))
  | [] => pure []
  | format :: rest => do
    let path ← reportPath dir output.outPrefix format
    match (← get).tree.find? path with
    | .error fault => Action.failFile fault
    | .ok found =>
      if found.isSome && !output.overwrite.truthy then
        throw (.usage ("Output file already exists: " ++ path.toString ++ " (use --overwrite)"))
    let others ← reportsAt dir output rest
    pure ((format, path) :: others)

/-- Settle where reports are written; the directory is made if there are any. -/
def settleReports (output : OutputSettings) : Action (List (ReportFormat × Path)) :=
  if output.formats.isEmpty then pure []
  else match output.outDir with
    | .text spelling => do
      let dir := Path.ofString spelling
      Action.changeTree fun tree => tree.makeDirs dir
      reportsAt dir output output.formats.eraseDups
    | _ => Action.broken "The output directory is not a text"

/-- Show on the status line that a header is read. Where the line is on, the handle has to have a text
and to be a key. -/
def showReading (handle : Value) (path : String) : Action Unit := do
  if handle.truthy && (← get).status.enabled then
    match handle.display? with
    | none => throw (.usage (Value.digitLimitMessage none))
    | some text =>
      if !handle.isKey then Action.broken "The handle cannot be a key"
      Action.callStatus (.show_ text path)

/-- Take a handle off the status line. -/
def clearStatus (handle : Value) : Action Unit :=
  if handle.truthy then handle.display?.forM fun text => Action.callStatus (.clear text)
  else pure ()

/-- Tell the events of a lookup under a handle. -/
def tellEvents (handle : Value) : List LookupEvent → Action Unit
  | [] => pure ()
  | event :: rest => do
    match event with
    | .remark record => Action.log record
    | .reading path => showReading handle path
    | .over => clearStatus handle
    tellEvents handle rest

/-- Look up the vtable that the settings ask for. -/
def lookUp (settings : Settings) : Action Vtable := do
  let pattern ← patternOf settings
  let filter := filterOf settings.files
  let recurse := settings.lookup.recurse.truthy
  let console ← get
  let handle := settings.logging.statusHandle
  match settings.lookup.interface with
  | .text name =>
    let (result, events) :=
      Lookup.findReading console.tree console.reading name pattern recurse filter
    tellEvents handle events
    match result with
    | .ok vtable => pure vtable
    | .error fault => Action.failSearch fault
  | other =>
    let (result, events) :=
      Lookup.concluded (Lookup.candidates console.tree other.display pattern recurse filter)
    tellEvents handle events
    match result with
    | .ok _ => Action.broken "The interface is not a text"
    | .error fault => Action.failSearch fault

/-- The text of a report. -/
def reportText (around : Scene) (pattern : String) (vtable : Vtable) (path : Path) :
    ReportFormat → List Char
  | .json => Report.json vtable (some pattern) around.reportTime
  | .csv => Report.Csv.render vtable
  | .markdown => Report.Markdown.render around.working path vtable

/-- Write the report of a format, if it was asked for. It is written in UTF-8, which every text has. -/
def writeReport (around : Scene) (pattern : String) (vtable : Vtable)
    (reports : List (ReportFormat × Path)) (format : ReportFormat) : Action Unit :=
  match reports.lookup format with
  | none => pure ()
  | some path =>
    let text := String.ofList (reportText around pattern vtable path format)
    Action.changeTree fun tree => match tree.write path text.toUTF8 with
      | .ok written => (.ok (), written)
      | .error fault => (.error fault, tree)

/-- What is told in the end: where the reports are, or the vtable if there are none. -/
def closing (vtable : Vtable) (reports : List (ReportFormat × Path)) : List String :=
  if reports.isEmpty then (Report.Listing.lines vtable (vtable.source.getD "")).map String.ofList
  else reports.map fun entry => entry.2.toString

/-- Look up a vtable and report it. -/
def report (around : Scene) (settings : Settings) : Action Unit := do
  let reports ← settleReports settings.output
  let enabled := settings.logging.progress.truthy && !settings.logging.quiet.truthy && around.terminal
  modify fun console => { console with status := StatusLine.new enabled }
  let vtable ← lookUp settings
  Action.log ⟨.info, source,
    vtable.interface ++ ": " ++ toString vtable.size ++ " methods from " ++ vtable.source.getD ""⟩
  let pattern ← patternOf settings
  [ReportFormat.json, .csv, .markdown].forM (writeReport around pattern vtable reports)
  (closing vtable reports).forM Action.print

/-- What the settings ask for. -/
def perform (around : Scene) (settings : Settings) : Action Unit :=
  if settings.dryRun.truthy then listHeaders settings else report around settings

/-- The line that tells of a failure, and the exit code. -/
def Failure.verdict : Failure → String × Nat
  | .lookup error => ("Lookup error: " ++ error.message, 1)
  | .usage message => ("Usage error: " ++ message, 2)
  | .broken cause => ("Runtime error: " ++ cause, 3)

/-- Run an action to its end. -/
def conclude (console : Console) (action : Action Unit) : Outcome :=
  match action.run.run console with
  | (.ok (), console) => console.outcome (.exited 0)
  | (.error failure, console) =>
    let (line, code) := failure.verdict
    (console.complain line).outcome (.exited code)

/-- Run with settings. -/
def runSettings (around : Scene) (settings : Settings) : Outcome :=
  let console := Console.start around
  let (logFile, tree) := openLog around.tree settings.logging.logFile
  match logFile with
  | .error fault => { console with tree }.outcome (.settingsFault fault)
  | .ok logFile =>
    conclude { console with tree, logFile, threshold := threshold settings.logging }
      (perform around settings)

/-- Run the lookup command. -/
def scan (around : Scene) (arguments : List String) : Outcome :=
  let console := Console.start around
  match CommandLine.scan.read arguments with
  | .error .help => { console with output := CommandLine.scan.help }.outcome (.exited 0)
  | .error (.fault fault) =>
    { console with errors := CommandLine.scan.complaint fault }.outcome (.exited 2)
  | .ok given =>
    match Settings.resolve around.tree around.home around.environment given with
    | .ok settings => runSettings around settings
    | .error fault =>
      match fault.message? with
      | some message => (console.complain ("Config error: " ++ message)).outcome (.exited 2)
      | none => console.outcome (.settingsFault fault)

/-- A failure never has the exit code of success. -/
theorem verdict_code (failure : Failure) : failure.verdict.2 ≠ 0 := by
  cases failure <;> exact Nat.succ_ne_zero _

end ComLayout.Run
