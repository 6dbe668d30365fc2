import ComLayout.Proofs.Run.Reporting

/-!
# How a run begins and ends

The command line and the settings are read before anything is changed. Then the log file is opened, and
only with a log file that could be opened is anything asked for. How that ends is the exit code, and a
failure is told by a line on the error stream.
-/

namespace ComLayout.Run

open Run.Action Console

variable {around : Scene} {arguments : List String} {settings : Settings}

/-- The settings that take effect: those that the command line, the environment and the settings file give
together. -/
def Effective (around : Scene) (arguments : List String) (settings : Settings) : Prop :=
  ∃ given, CommandLine.scan.read arguments = .ok given ∧
    Settings.resolve around.tree around.home around.environment given = .ok settings

/-- The file to which a run logs: the one to which the spelling in the settings leads. -/
def IsLogFile (around : Scene) (arguments : List String) (place : Location) : Prop :=
  ∃ settings spelling, Effective around arguments settings ∧
    settings.logging.logFile = .text spelling ∧ spelling ≠ "" ∧
    (scan around arguments).tree.locate (logPath spelling) = .ok place

/-- The state in which a run starts once its log file is open. -/
def opened (around : Scene) (settings : Settings) (logFile : Option Path) (tree : Tree) : Console :=
  { Console.start around with tree, logFile, threshold := threshold settings.logging }

/-- Settings that take effect are run with. -/
theorem Effective.scan_eq (effective : Effective around arguments settings) :
    scan around arguments = runSettings around settings := by
  obtain ⟨given, read, resolved⟩ := effective
  simp only [scan, read, resolved]

section Refused

variable {given : CommandLine.Given} {fault : SettingsFault}
  (accepted : CommandLine.scan.read arguments = .ok given)
  (resolved : Settings.resolve around.tree around.home around.environment given = .error fault)
include accepted resolved

end Refused

/-- At most one set of settings takes effect. -/
theorem Effective.unique {others : Settings} (effective : Effective around arguments settings)
    (also : Effective around arguments others) : settings = others := by
  obtain ⟨given, read, resolved⟩ := effective
  obtain ⟨again, readAgain, resolvedAgain⟩ := also
  obtain rfl := Except.ok.inj (read.symm.trans readAgain)
  exact Except.ok.inj (resolved.symm.trans resolvedAgain)

/-- Without settings that take effect, no file is changed. -/
theorem tree_of_not_effective (none : ∀ settings, ¬ Effective around arguments settings) :
    (scan around arguments).tree = around.tree := by
  unfold scan
  split
  · rfl
  · rfl
  next given read =>
    split
    next settings resolved => exact absurd ⟨given, read, resolved⟩ (none settings)
    next => split <;> rfl

/-- A value that stands for no log file changes nothing, whether it is empty or no text. Otherwise the log file is
made in its directory. -/
theorem openLog_cases {tree later : Tree} {value : Value} {result : Except SettingsFault (Option Path)}
    (opening : openLog tree value = (result, later)) :
    (result = .ok none ∧ later = tree) ∨ (result = .error .wrongKind ∧ later = tree) ∨
      ∃ spelling made, value = .text spelling ∧ spelling ≠ "" ∧
        tree.inItsDirectory (Path.ofString spelling) (·.append (logPath spelling) ByteArray.empty) = (made, later) ∧
        result = (made.mapError .file).map fun _ => some (logPath spelling) := by
  unfold openLog at opening
  split at opening
  next =>
    cases opening
    exact .inl ⟨rfl, rfl⟩
  next truthy =>
    split at opening
    next spelling =>
      have filled : spelling ≠ "" := by
        rintro rfl
        exact truthy rfl
      cases opening
      exact .inr (.inr ⟨spelling, _, rfl, filled, rfl, rfl⟩)
    next =>
      cases opening
      exact .inr (.inl ⟨rfl, rfl⟩)

/-- The log file that was opened is the one that is spelled, and no other file was changed. -/
theorem openLog_eq_ok {tree later : Tree} {value : Value} {logFile : Option Path}
    (opening : openLog tree value = (.ok logFile, later)) :
    (∀ path, logFile = some path →
        ∃ spelling, value = .text spelling ∧ spelling ≠ "" ∧ path = logPath spelling) ∧
      tree.Keeps (fun place => ∃ path, logFile = some path ∧ later.locate path = .ok place) later := by
  rcases openLog_cases opening with ⟨none, rfl⟩ | ⟨refused, -⟩ | ⟨spelling, made, isText, filled, making, result⟩
  · cases none
    exact ⟨nofun, .refl later⟩
  · cases refused
  · cases made with
    | error fault => cases result
    | ok =>
      cases result
      obtain ⟨between, dirs, appended⟩ := Tree.inItsDirectory_eq_ok making
      refine ⟨fun path is => ⟨spelling, isText, filled, (Option.some.inj is).symm⟩, ?_⟩
      have kept := Tree.keeps_makeDirs tree (Path.ofString spelling).parent
      rw [dirs] at kept
      exact (kept.mono fun _ never => never.elim).trans
        ((Tree.keeps_append appended).mono fun place here => ⟨logPath spelling, rfl, here⟩)

/-- A log file that cannot be opened leaves all files as they were. -/
theorem openLog_eq_error {tree later : Tree} {value : Value} {fault : SettingsFault}
    (opening : openLog tree value = (.error fault, later)) : tree.Keeps (fun _ => False) later := by
  rcases openLog_cases opening with ⟨none, -⟩ | ⟨-, rfl⟩ | ⟨spelling, made, -, -, making, result⟩
  · cases none
  · exact .refl later
  · cases made with
    | error fault => exact Tree.keeps_inItsDirectory making
    | ok => cases result

/-- Without a log file, a fault escapes. -/
theorem runSettings_of_error {fault : SettingsFault} {tree : Tree}
    (opening : openLog around.tree settings.logging.logFile = (.error fault, tree)) :
    runSettings around settings = { Console.start around with tree }.outcome (.settingsFault fault) := by
  rw [runSettings, opening]

/-- With the log file open, what is asked for is done. -/
theorem runSettings_of_ok {logFile : Option Path} {tree : Tree}
    (opening : openLog around.tree settings.logging.logFile = (.ok logFile, tree)) :
    runSettings around settings = conclude (opened around settings logFile tree) (perform around settings) := by
  rw [runSettings, opening]
  rfl

section Conclude

variable {console later : Console} {action : Action Unit}

/-- What succeeds ends with the code zero. -/
theorem conclude_of_ok (ran : action.run.run console = (.ok (), later)) :
    conclude console action = later.outcome (.exited 0) := by
  rw [conclude, ran]

/-- What fails ends with the line and the code of its failure. -/
theorem conclude_of_error {failure : Failure} (ran : action.run.run console = (.error failure, later)) :
    conclude console action = (later.complain failure.verdict.1).outcome (.exited failure.verdict.2) := by
  rw [conclude, ran]

/-- The files at the end are those that the action leaves. -/
theorem conclude_tree (console : Console) (action : Action Unit) :
    (conclude console action).tree = (action.run.run console).2.tree := by
  rcases ran : action.run.run console with ⟨failure | ⟨⟩, later⟩
  · rw [conclude_of_error ran]
    rfl
  · rw [conclude_of_ok ran]
    rfl

/-- How a run ends by the result of what was asked for. -/
def endingOf : Except Failure Unit → Ending
  | .ok () => .exited 0
  | .error failure => .exited failure.verdict.2

/-- A run ends by the result of what was asked for. -/
theorem conclude_ending (console : Console) (action : Action Unit) :
    (conclude console action).ending = endingOf (action.run.run console).1 := by
  rcases ran : action.run.run console with ⟨failure | ⟨⟩, later⟩
  · rw [conclude_of_error ran]
    rfl
  · rw [conclude_of_ok ran]
    rfl

/-- What is printed at the end is what the action printed. -/
theorem conclude_output (console : Console) (action : Action Unit) :
    (conclude console action).output = (action.run.run console).2.output := by
  rcases ran : action.run.run console with ⟨failure | ⟨⟩, later⟩
  · rw [conclude_of_error ran]
    rfl
  · rw [conclude_of_ok ran]
    rfl

end Conclude

/-- A run whose log file could be opened performs what is asked for. -/
structure Performs (around : Scene) (arguments : List String) (settings : Settings) (logFile : Option Path)
    (tree : Tree) (result : Except Failure Unit) (later : Console) : Prop where
  effective : Effective around arguments settings
  opening : openLog around.tree settings.logging.logFile = (.ok logFile, tree)
  ran : (perform around settings).run.run (opened around settings logFile tree) = (result, later)

/-- A run that ends with a code has its log file open. -/
theorem Effective.exists_performs (effective : Effective around arguments settings) {code : Nat}
    (ended : (scan around arguments).ending = .exited code) :
    ∃ logFile tree result later, Performs around arguments settings logFile tree result later := by
  rcases opening : openLog around.tree settings.logging.logFile with ⟨fault | logFile, tree⟩
  · rw [effective.scan_eq, runSettings_of_error opening] at ended
    cases ended
  · exact ⟨logFile, tree, _, _, effective, opening, rfl⟩

namespace Performs

variable {logFile : Option Path} {tree : Tree} {result : Except Failure Unit} {later : Console}
  (performs : Performs around arguments settings logFile tree result later)
include performs

/-- The run ends with what is asked for. -/
theorem scan_eq :
    scan around arguments = conclude (opened around settings logFile tree) (perform around settings) :=
  performs.effective.scan_eq.trans (runSettings_of_ok performs.opening)

/-- The tree at the end is the one that is left. -/
theorem tree_eq : (scan around arguments).tree = later.tree := by
  rw [performs.scan_eq, conclude_tree, performs.ran]

/-- The output at the end is what was printed. -/
theorem output_eq : (scan around arguments).output = later.output := by
  rw [performs.scan_eq, conclude_output, performs.ran]

/-- The ending is that of the result. -/
theorem ending_eq : (scan around arguments).ending = endingOf result := by
  rw [performs.scan_eq, conclude_ending, performs.ran]

/-- The log file at the end is the one that the settings spell. -/
theorem isLogFile {place : Location} (here : later.LogsAt place) : IsLogFile around arguments place := by
  obtain ⟨path, is, here⟩ := here
  have same : logFile = some path := (perform_continues performs.ran).logFile.symm.trans is
  obtain ⟨spelling, isText, filled, rfl⟩ := (openLog_eq_ok performs.opening).1 path same
  exact ⟨settings, spelling, performs.effective, isText, filled, performs.tree_eq ▸ here⟩

/-- While a run spares files, all but its log file are as they were in the beginning. -/
theorem untouched {looked : Console} (spared : (opened around settings logFile tree).Spares looked)
    (onward : looked.Continues later) (place : Location) (other : ¬ IsLogFile around arguments place) :
    looked.tree.contents? place = around.tree.contents? place := by
  have noLog : ¬ looked.LogsAt place := fun here => other (performs.isLogFile (onward.logsAt here))
  have before : ¬ (opened around settings logFile tree).LogsAt place :=
    fun here => noLog (spared.continues.logsAt here)
  exact (spared.tree.files place noLog).trans ((openLog_eq_ok performs.opening).2.files place before)

/-- A dry run spares files. -/
theorem spares (dry : settings.dryRun.truthy = true) : (opened around settings logFile tree).Spares later := by
  have ran := performs.ran
  rw [perform, if_pos dry] at ran
  have spared := listHeaders_spares settings (opened around settings logFile tree)
  rwa [ran] at spared

/-- A run that is no dry run goes as a lookup with reports does. -/
theorem course (wet : settings.dryRun.truthy = false) :
    Course around settings (opened around settings logFile tree) result later := by
  have ran := performs.ran
  rw [perform, wet, if_neg Bool.false_ne_true] at ran
  exact report_course ran

end Performs

end ComLayout.Run
