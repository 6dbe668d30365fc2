import ComLayout.Proofs.Run.Opening

/-!
# Files that a run does not touch

A run changes its log file and the reports that are asked for, and no other file. Reports are written last:
if the lookup fails, or a dry run is asked for, they stay as they were. Unless overwriting is allowed, no
report replaces a file.

Only telling where the reports are comes after them. An output that cannot show the path of a report makes the
run fail then, as if the command had not been used properly, and the reports stay.
-/

namespace ComLayout.Run

open Run.Action Console

/-- The vtable that the lookup of a run finds. Its log file is open then, and the directory of its reports
is made. -/
def LooksUp (around : Scene) (settings : Settings) (dir : String) (vtable : Vtable) : Prop :=
  ∃ pattern name logFile tree made, settings.path = .text pattern ∧
    settings.lookup.interface = .text name ∧
    openLog around.tree settings.logging.logFile = (.ok logFile, tree) ∧
    tree.makeDirs (Path.ofString dir) = (.ok (), made) ∧
    (Lookup.findReading made ({ opened around settings logFile tree with tree := made }).reading name pattern
      settings.lookup.recurse.truthy (filterOf settings.files)).1 = .ok vtable

variable {around : Scene} {arguments : List String} {settings : Settings} {place : Location}

/-- A file that a run has changed is its log file or a report. In the latter case the run was no dry run, its lookup
did not fail, and there was no such file unless it might be overwritten. -/
theorem scan_changed (other : ¬ IsLogFile around arguments place)
    (changed : (scan around arguments).tree.contents? place ≠ around.tree.contents? place) :
    ∃ settings dir front format, Effective around arguments settings ∧ settings.dryRun.truthy = false ∧
      settings.output.outDir = .text dir ∧ settings.output.outPrefix.display? = some front ∧
      format ∈ settings.output.formats ∧
      (scan around arguments).tree.locate (reportFile dir front format) = .ok place ∧
      (settings.output.overwrite.truthy = false → around.tree.isFile place = false) ∧
      ((scan around arguments).ending = .exited 0 ∨ (scan around arguments).ending = .exited 2 ∨
        (scan around arguments).ending = .exited 3) := by
  by_cases some : ∃ settings, Effective around arguments settings
  case neg =>
    refine absurd (congrArg (·.contents? place) (tree_of_not_effective ?_)) changed
    exact fun settings effective => some ⟨settings, effective⟩
  obtain ⟨settings, effective⟩ := some
  rcases opening : openLog around.tree settings.logging.logFile with ⟨fault | logFile, tree⟩
  · rw [effective.scan_eq, runSettings_of_error opening] at changed
    exact absurd ((openLog_eq_error opening).files place id) changed
  rcases ran : (perform around settings).run.run (opened around settings logFile tree) with ⟨result, later⟩
  have performs : Performs around arguments settings logFile tree result later := ⟨effective, opening, ran⟩
  have noLog : ¬ later.LogsAt place := fun here => other (performs.isLogFile here)
  have atStart : tree.contents? place = around.tree.contents? place :=
    performs.untouched (.refl _) (perform_continues ran) place other
  rw [performs.tree_eq, ← atStart] at changed
  cases wet : settings.dryRun.truthy with
  | true => exact absurd ((performs.spares wet).tree.files place noLog) changed
  | false =>
    obtain ⟨dir, front, format, inDir, display, wanted, here, free, failed⟩ :=
      (performs.course wet).changed noLog changed
    have ended : endingOf result = .exited 0 ∨ endingOf result = .exited 2 ∨ endingOf result = .exited 3 := by
      rcases result with failure | ⟨⟩
      · rcases failed failure rfl with ⟨cause, rfl⟩ | ⟨message, rfl⟩
        · exact .inr (.inr rfl)
        · exact .inr (.inl rfl)
      · exact .inl rfl
    refine ⟨settings, dir, front, format, effective, wet, inDir, display, wanted, performs.tree_eq ▸ here,
      fun kept => ?_, performs.ending_eq ▸ ended⟩
    rw [Tree.isFile, ← atStart]
    exact free kept

/-- A run with settings that take effect changes no file besides its log file and the reports that are asked for. -/
theorem Effective.elsewhere (effective : Effective around arguments settings) {dir front : String}
    (inDir : settings.output.outDir = .text dir) (display : settings.output.outPrefix.display? = some front)
    (other : ¬ IsLogFile around arguments place)
    (beside : ∀ format ∈ settings.output.formats,
      (scan around arguments).tree.locate (reportFile dir front format) ≠ .ok place) :
    (scan around arguments).tree.contents? place = around.tree.contents? place := by
  refine Classical.byContradiction fun changed => ?_
  obtain ⟨also, dir', front', format, takes, -, inDir', display', wanted, here, -, -⟩ := scan_changed other changed
  obtain rfl := effective.unique takes
  obtain rfl := Value.text.inj (inDir.symm.trans inDir')
  obtain rfl := Option.some.inj (display.symm.trans display')
  exact beside format wanted here

/-- Where reports are written, it is told where they are. -/
theorem closing_reportsIn (vtable : Vtable) (dir front : String) {formats : List ReportFormat}
    (some : formats ≠ []) : closing vtable (reportsIn dir front formats.eraseDups) =
      (reportsIn dir front formats.eraseDups).map fun entry => entry.2.toString := by
  cases formats with
  | nil => exact absurd rfl some
  | cons format rest =>
    rw [List.eraseDups_cons]
    rfl

end ComLayout.Run
