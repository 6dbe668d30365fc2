import ComLayout.Proofs.Run.Delivering

/-!
# The course of a run

A run reads its settings and opens its log file. Then it settles where reports are written, looks up the
vtable and delivers it, in this order: each part is reached only if those before it succeed, and what it
does is found in the state that they leave. Here each part is told apart from the others.
-/

namespace ComLayout.Run

open Run.Action Console CommandLine

/-- Lines as they are printed. -/
def printed (lines : List String) : String := String.join (lines.map (· ++ "\n"))

/-- A line is printed unless the output refuses it. -/
theorem run_print (line : String) (console : Console) :
    (Action.print line).run.run console = match console.encoding.refusal? line with
      | none => (.ok (), console.print line)
      | some message => (.error (.usage message), console) := by
  rw [Action.print, run_get_bind]
  cases console.encoding.refusal? line <;> rfl

/-- What comes of printing lines one after the other: all of them are printed, or only those before the first that
the output refuses, and then the command was not used properly. -/
inductive Prints (lines : List String) (console : Console) : Except Failure Unit → Console → Prop where
  | all (shown : ∀ line ∈ lines, console.encoding.refusal? line = none) :
      Prints lines console (.ok ()) { console with output := console.output ++ printed lines }
  | refused (front : List String) (line : String) (rest : List String) (message : String)
      (cut : lines = front ++ line :: rest) (shown : ∀ line ∈ front, console.encoding.refusal? line = none)
      (refusal : console.encoding.refusal? line = some message) :
      Prints lines console (.error (.usage message)) { console with output := console.output ++ printed front }

/-- Printing lines goes as described. -/
theorem prints (lines : List String) (console : Console) :
    Prints lines console ((lines.forM Action.print).run.run console).1
      ((lines.forM Action.print).run.run console).2 := by
  induction lines generalizing console with
  | nil =>
    have nothing : console.output ++ printed [] = console.output := String.append_empty
    have same : Prints [] console (.ok ()) { console with output := console.output ++ printed [] } :=
      .all (by simp)
    rwa [nothing] at same
  | cons line rest inductionHypothesis =>
    have joined (lines : List String) : console.output ++ printed (line :: lines) =
        (console.print line).output ++ printed lines := by
      simp [printed, Console.print, String.append_assoc]
    rw [run_forM_cons, run_bind, run_print]
    cases refusal : console.encoding.refusal? line with
    | some message =>
      have nothing : console.output ++ printed [] = console.output := String.append_empty
      have stopped : Prints (line :: rest) console (.error (.usage message))
          { console with output := console.output ++ printed [] } :=
        .refused [] line rest message rfl (by simp) refusal
      rwa [nothing] at stopped
    | none =>
      simp only
      have onward := inductionHypothesis (console.print line)
      generalize ((rest.forM Action.print).run.run (console.print line)).1 = result at onward ⊢
      generalize ((rest.forM Action.print).run.run (console.print line)).2 = later at onward ⊢
      cases onward with
      | all shown =>
        have all : Prints (line :: rest) console (.ok ())
            { console with output := console.output ++ printed (line :: rest) } :=
          .all (List.forall_mem_cons.mpr ⟨refusal, shown⟩)
        rwa [joined] at all
      | refused front other behind message cut shown refusal' =>
        have stopped : Prints (line :: rest) console (.error (.usage message))
            { console with output := console.output ++ printed (line :: front) } :=
          .refused (line :: front) other behind message (congrArg (line :: ·) cut)
            (List.forall_mem_cons.mpr ⟨refusal, shown⟩) refusal'
        rwa [joined] at stopped

section Deliver

variable (around : Scene) (pattern : String) (vtable : Vtable)

/-- Write the reports of a vtable and tell where they are, or print the vtable if there are none. -/
def deliver (reports : List (ReportFormat × Path)) : Action Unit := do
  [ReportFormat.json, .csv, .markdown].forM (writeReport around pattern vtable reports)
  (closing vtable reports).forM Action.print

/-- How a vtable is delivered: not all of its reports can be written, or all are, and then what is to be told is
printed as far as the output shows it. -/
inductive Delivers (around : Scene) (pattern : String) (vtable : Vtable) (reports : List (ReportFormat × Path))
    (console : Console) : Except Failure Unit → Console → Prop where
  | unwritten {failure : Failure} {later : Console}
      (writing : ([ReportFormat.json, .csv, .markdown].forM
        (writeReport around pattern vtable reports)).run.run console = (.error failure, later)) :
      Delivers around pattern vtable reports console (.error failure) later
  | written {full later : Console} {result : Except Failure Unit}
      (writing : ([ReportFormat.json, .csv, .markdown].forM
        (writeReport around pattern vtable reports)).run.run console = (.ok (), full))
      (told : Prints (closing vtable reports) full result later) :
      Delivers around pattern vtable reports console result later

/-- A vtable is delivered as described. -/
theorem delivers {reports : List (ReportFormat × Path)} {console later : Console} {result : Except Failure Unit}
    (done : (deliver around pattern vtable reports).run.run console = (result, later)) :
    Delivers around pattern vtable reports console result later := by
  rw [deliver, run_bind] at done
  rcases writing : ([ReportFormat.json, .csv, .markdown].forM
    (writeReport around pattern vtable reports)).run.run console with ⟨_ | ⟨⟩, full⟩
  · rw [writing] at done
    cases done
    exact .unwritten writing
  · rw [writing] at done
    have told := prints (closing vtable reports) full
    simp only [done] at told
    exact .written writing told

end Deliver

section Delivered

variable {around : Scene} {pattern : String} {vtable : Vtable} {reports : List (ReportFormat × Path)}
  {console later : Console} {result : Except Failure Unit}

/-- Printing changes the output alone. -/
theorem Prints.same {lines : List String} (told : Prints lines console result later) :
    later = { console with output := later.output } := by
  cases told <;> rfl

/-- Delivering leaves the state of the writing of the reports, but for the output. -/
theorem Delivers.writes (delivered : Delivers around pattern vtable reports console result later) :
    ∃ full, Writes ([ReportFormat.json, .csv, .markdown].filterMap (List.lookup · reports)) console full ∧
      later = { full with output := later.output } := by
  have wrote := writeReports_writes around pattern vtable reports [.json, .csv, .markdown] console
  cases delivered with
  | unwritten writing =>
    rw [writing] at wrote
    exact ⟨later, wrote, rfl⟩
  | @written full _ _ writing told =>
    rw [writing] at wrote
    exact ⟨full, wrote, told.same⟩

/-- Delivering takes nothing away. -/
theorem Delivers.continues (delivered : Delivers around pattern vtable reports console result later) :
    console.Continues later := by
  obtain ⟨full, wrote, same⟩ := delivered.writes
  rw [same]
  exact ⟨wrote.logFile, wrote.encoding, wrote.continues.dirs⟩

end Delivered

section Report

variable {around : Scene} {settings : Settings}

/-- The status line with which a vtable is looked up. -/
def statusFor (around : Scene) (logging : LoggingSettings) : StatusLine :=
  StatusLine.new (logging.progress.truthy && !logging.quiet.truthy && around.terminal)

/-- The record that tells what was found. -/
def foundRecord (vtable : Vtable) : LogRecord :=
  ⟨.info, source, vtable.interface ++ ": " ++ toString vtable.size ++ " methods from " ++
    vtable.source.getD ""⟩

/-- A lookup with reports settles their places, looks up the vtable, logs it and delivers it. -/
theorem report_eq (around : Scene) (settings : Settings) :
    report around settings = (do
      let reports ← settleReports settings.output
      modify fun console => { console with status := statusFor around settings.logging }
      let vtable ← lookUp settings
      Action.log (foundRecord vtable)
      let pattern ← patternOf settings
      deliver around pattern vtable reports) := rfl

/-- The path is had only if it is a text. -/
theorem patternOf_eq_ok {console later : Console} {pattern : String}
    (isText : (patternOf settings).run.run console = (.ok pattern, later)) :
    settings.path = .text pattern ∧ later = console := by
  unfold patternOf at isText
  split at isText
  next path =>
    cases isText
    exact ⟨path, rfl⟩
  next => cases isText

/-- A lookup that finds a vtable is one of a text by a text. -/
theorem lookUp_eq_ok {console later : Console} {vtable : Vtable}
    (found : (lookUp settings).run.run console = (.ok vtable, later)) :
    ∃ pattern name, settings.path = .text pattern ∧ settings.lookup.interface = .text name ∧
      (Lookup.findReading console.tree console.reading name pattern settings.lookup.recurse.truthy
        (filterOf settings.files)).1 = .ok vtable := by
  obtain ⟨pattern, same, isText, onward⟩ := run_bind_eq_ok.mp found
  obtain ⟨path, rfl⟩ := patternOf_eq_ok isText
  obtain ⟨_, _, isConsole, onward⟩ := run_bind_eq_ok.mp onward
  cases isConsole
  split at onward
  next name interface =>
    obtain ⟨_, _, -, ended⟩ := run_bind_eq_ok.mp onward
    refine ⟨pattern, name, path, interface, ?_⟩
    split at ended
    next result =>
      cases ended
      exact result
    next =>
      rw [failSearch_eq] at ended
      cases ended
  next =>
    obtain ⟨_, _, -, ended⟩ := run_bind_eq_ok.mp onward
    split at ended
    · cases ended
    · rw [failSearch_eq] at ended
      cases ended

/-- The lookup comes to a vtable, once the places of the reports are settled. -/
def Reaches (around : Scene) (settings : Settings) (console : Console) (vtable : Vtable) : Prop :=
  ∃ reports ready looked, (settleReports settings.output).run.run console = (.ok reports, ready) ∧
    (lookUp settings).run.run { ready with status := statusFor around settings.logging } = (.ok vtable, looked)

/-- How a lookup with reports goes. Either it comes to no vtable, and has changed no file but the log file; or the
places of the reports are settled, the vtable is found as headers are read then, only the log file changes
meanwhile, and what was found is delivered. -/
inductive Course (around : Scene) (settings : Settings) (console : Console) :
    Except Failure Unit → Console → Prop where
  | stopped {failure : Failure} {later : Console} (spared : console.Spares later)
      (lost : ∀ vtable, ¬ Reaches around settings console vtable) :
      Course around settings console (.error failure) later
  | reached {reports : List (ReportFormat × Path)} {ready looked : Console} {pattern name : String}
      {vtable : Vtable} {result : Except Failure Unit} {later : Console}
      (settled : Settled settings.output console reports ready) (spared : console.Spares ready)
      (path : settings.path = .text pattern) (interface : settings.lookup.interface = .text name)
      (found : (Lookup.findReading ready.tree ready.reading name pattern settings.lookup.recurse.truthy
        (filterOf settings.files)).1 = .ok vtable)
      (told : ready.Tells looked)
      (delivered : Delivers around pattern vtable reports looked result later)
      (reached : Reaches around settings console vtable) :
      Course around settings console result later

/-- A lookup with reports goes as described. -/
theorem report_course {console later : Console} {result : Except Failure Unit}
    (ran : (report around settings).run.run console = (result, later)) :
    Course around settings console result later := by
  rw [report_eq, run_bind] at ran
  have spared := settleReports_spares settings.output console
  rcases settling : (settleReports settings.output).run.run console with ⟨_ | reports, ready⟩
  · rw [settling] at ran spared
    cases ran
    refine .stopped spared ?_
    rintro vtable ⟨reports, ready, _, settled, -⟩
    rw [settling] at settled
    cases settled
  rw [settling] at ran spared
  simp only [run_bind, run_modify] at ran
  have lit : ready.Tells { ready with status := statusFor around settings.logging } :=
    ⟨rfl, rfl, rfl, fun _ => rfl, fun _ _ => rfl⟩
  have told := lookUp_tells settings { ready with status := statusFor around settings.logging }
  rcases looking : (lookUp settings).run.run { ready with status := statusFor around settings.logging } with
    ⟨_ | vtable, looked⟩
  · rw [looking] at ran told
    cases ran
    refine .stopped (spared.trans (lit.trans told).spares) ?_
    rintro vtable ⟨_, _, _, settled, found⟩
    obtain ⟨-, rfl⟩ := Prod.mk.inj (settling.symm.trans settled)
    rw [looking] at found
    cases found
  rw [looking] at ran told
  obtain ⟨pattern, name, path, interface, found⟩ := lookUp_eq_ok looking
  have isPattern : patternOf settings = pure pattern := by rw [patternOf, path]
  simp only [isPattern, run_pure] at ran
  exact .reached (settleReports_settled settling) spared path interface found
    ((lit.trans told).trans (tells_log looked _)) (delivers around pattern vtable ran)
    ⟨reports, ready, looked, settling, looking⟩

/-- A lookup with reports takes nothing away. -/
theorem Course.continues {console later : Console} {result : Except Failure Unit}
    (course : Course around settings console result later) : console.Continues later := by
  cases course with
  | stopped spared => exact spared.continues
  | reached settled spared path interface found told delivered =>
    exact (spared.continues.trans told.continues).trans delivered.continues

/-- A file that a lookup with reports has changed is the log file or a report, and there was no such file before
unless it might be overwritten. If the lookup fails nevertheless, then something broke, or the output refused a line
when all reports had been written. -/
theorem Course.changed {console later : Console} {result : Except Failure Unit}
    (course : Course around settings console result later) {place : Location}
    (other : ¬ later.LogsAt place)
    (changed : later.tree.contents? place ≠ console.tree.contents? place) :
    ∃ dir front format, settings.output.outDir = .text dir ∧
      settings.output.outPrefix.display? = some front ∧ format ∈ settings.output.formats ∧
      later.tree.locate (reportFile dir front format) = .ok place ∧
      (settings.output.overwrite.truthy = false → console.tree.isFile place = false) ∧
      ∀ failure, result = .error failure → (∃ cause, failure = .broken cause) ∨ ∃ message, failure = .usage message := by
  cases course with
  | stopped spared => exact absurd (spared.tree.files place other) changed
  | @reached reports ready looked pattern name vtable _ _ settled spared path interface found told delivered =>
    obtain ⟨full, writes, same⟩ := delivered.writes
    have fullLogs : ¬ full.LogsAt place := by
      rwa [same] at other
    have lookedLogs : ¬ looked.LogsAt place := fun here => fullLogs (writes.continues.logsAt here)
    have readyLogs : ¬ ready.LogsAt place := fun here => lookedLogs (told.continues.logsAt here)
    have before : looked.tree.contents? place = console.tree.contents? place :=
      (told.files place lookedLogs).trans (spared.tree.files place readyLogs)
    have moved : full.tree.contents? place ≠ looked.tree.contents? place := by
      rw [before]
      rwa [same] at changed
    have touched : ∃ path ∈ [ReportFormat.json, .csv, .markdown].filterMap (List.lookup · reports),
        looked.tree.locate path = .ok place := by
      refine Classical.byContradiction fun none => moved (writes.files place fun path member here => ?_)
      exact none ⟨path, member, here⟩
    obtain ⟨path, member, here⟩ := touched
    cases settled with
    | nothing => simp at member
    | below dir front tree some inDir display made lookedAt =>
      obtain ⟨format, -, wanted, rfl⟩ := eq_reportFile_of_mem member
      have wanted : format ∈ settings.output.formats := List.mem_eraseDups.mp wanted
      refine ⟨dir, front, format, inDir, display, wanted, ?_, fun kept => ?_, ?_⟩
      · rw [same]
        exact writes.locate.mpr here
      · obtain ⟨_, vacant, free⟩ := lookedAt format wanted
        rw [free kept] at vacant
        have atReady : tree.locate (reportFile dir front format) = .ok place := told.locate.mp here
        rw [Tree.find?, atReady] at vacant
        have absent : tree.exists? place = false := by simpa using vacant
        have noFile : tree.isFile place = false := (Bool.or_eq_false_iff.mp absent).1
        rwa [Tree.isFile, spared.tree.files place readyLogs] at noFile
      · rintro failure rfl
        cases delivered with
        | unwritten writing =>
          rcases failure_writeReports around pattern vtable writing with broken | unchanged
          · exact .inl broken
          · have still : full.tree = looked.tree := by rw [← unchanged, same]
            exact absurd (congrArg (·.contents? place) still) moved
        | written writing told =>
          cases told
          exact .inr ⟨_, rfl⟩

/-- What is asked for takes nothing away. -/
theorem perform_continues {console later : Console} {result : Except Failure Unit}
    (ran : (perform around settings).run.run console = (result, later)) : console.Continues later := by
  unfold perform at ran
  split at ran
  next =>
    have spared := listHeaders_spares settings console
    rw [ran] at spared
    exact spared.continues
  next => exact (report_course ran).continues

end Report

end ComLayout.Run
