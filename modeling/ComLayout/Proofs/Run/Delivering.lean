import ComLayout.Proofs.Run.Settling

/-!
# Writing reports

Reports are written one after the other, each at the place of its file. Since no two of them have the same
place, what was written stays, and no other file is changed, nor is a directory made. If a path is refused
because it holds the character with the code zero, then so are all, and nothing is written.
-/

namespace ComLayout.Run

open Run.Action Console

/-- What is left as it was while files are written to some paths. -/
structure Console.Writes (paths : List Path) (console later : Console) : Prop where
  output : later.output = console.output
  logFile : later.logFile = console.logFile
  encoding : later.encoding = console.encoding
  dirs : ∀ place, later.tree.isDir place = console.tree.isDir place
  files : ∀ place, (∀ path ∈ paths, console.tree.locate path ≠ .ok place) →
    later.tree.contents? place = console.tree.contents? place

namespace Console.Writes

variable {paths : List Path} {console later third : Console}

/-- Writing takes nothing away. -/
theorem continues (written : Writes paths console later) : console.Continues later :=
  ⟨written.logFile, written.encoding, fun place dir => (written.dirs place).trans dir⟩

/-- Paths lead to where they led. -/
theorem locate (written : Writes paths console later) {p : Path} {place : Location} :
    later.tree.locate p = .ok place ↔ console.tree.locate p = .ok place :=
  ⟨Tree.locate_mono fun above dir => (written.dirs above).symm.trans dir,
    Tree.locate_mono written.continues.dirs⟩

/-- Nothing was written yet. -/
theorem refl (console : Console) : Writes paths console console :=
  ⟨rfl, rfl, rfl, fun _ => rfl, fun _ _ => rfl⟩

/-- What is written in turn. -/
theorem trans (first : Writes paths console later) (second : Writes paths later third) :
    Writes paths console third where
  output := second.output.trans first.output
  logFile := second.logFile.trans first.logFile
  encoding := second.encoding.trans first.encoding
  dirs place := (second.dirs place).trans (first.dirs place)
  files place other := by
    have onward : ∀ path ∈ paths, later.tree.locate path ≠ .ok place :=
      fun path member here => other path member (first.locate.mp here)
    exact (second.files place onward).trans (first.files place other)

/-- More paths may be written to. -/
theorem mono {more : List Path} (written : Writes paths console later) (all : paths ⊆ more) :
    Writes more console later :=
  ⟨written.output, written.logFile, written.encoding, written.dirs,
    fun place other => written.files place fun path member => other path (all member)⟩

end Console.Writes

instance {paths : List Path} : Lasting (Writes paths) := ⟨.refl, .trans⟩

/-- Writing a file at the place of its path changes that file alone. -/
theorem writes_of_write {console : Console} {path : Path} {bytes : ByteArray} {tree : Tree}
    (written : console.tree.write path bytes = .ok tree) :
    Writes [path] console { console with tree } := by
  obtain ⟨place, found, _, rfl⟩ := Tree.write_eq_ok written
  have enclosed := Tree.enclosed_locate found
  refine ⟨rfl, rfl, rfl, Tree.isDir_addFile enclosed, fun other elsewhere => ?_⟩
  refine Tree.contents_addFile_of_ne enclosed ?_
  rintro rfl
  exact elsewhere path List.mem_cons_self found

section Report

variable (around : Scene) (pattern : String) (vtable : Vtable)

/-- The bytes of the report in a format, written at a path. -/
def reportBytes (path : Path) (format : ReportFormat) : ByteArray :=
  (String.ofList (reportText around pattern vtable path format)).toUTF8

variable (reports : List (ReportFormat × Path)) (format : ReportFormat)

/-- A report that was not asked for is not written. -/
theorem writeReport_of_none {reports : List (ReportFormat × Path)} {format : ReportFormat}
    (unwanted : reports.lookup format = none) (console : Console) :
    (writeReport around pattern vtable reports format).run.run console = (.ok (), console) := by
  rw [writeReport, unwanted]
  rfl

/-- A report that was asked for is written at its path, or the run fails. -/
theorem writeReport_of_some {reports : List (ReportFormat × Path)} {format : ReportFormat} {path : Path}
    (wanted : reports.lookup format = some path) (console : Console) :
    (writeReport around pattern vtable reports format).run.run console =
      match console.tree.write path (reportBytes around pattern vtable path format) with
      | .ok tree => (.ok (), { console with tree })
      | .error fault => (.error (fileFailure fault), console) := by
  rw [writeReport, wanted]
  change (changeTree _).run.run console = _
  rw [changeTree_run]
  simp only [reportBytes]
  cases console.tree.write path _ <;> rfl

/-- Writing a report changes its file alone. -/
theorem writeReport_writes (reports : List (ReportFormat × Path)) (format : ReportFormat) :
    Obeys (Writes (reports.lookup format).toList) (writeReport around pattern vtable reports format) := by
  intro console
  cases wanted : reports.lookup format with
  | none =>
    rw [writeReport_of_none around pattern vtable wanted]
    exact .refl console
  | some path =>
    rw [writeReport_of_some around pattern vtable wanted]
    cases written : console.tree.write path (reportBytes around pattern vtable path format) with
    | error fault => exact .refl console
    | ok tree => exact writes_of_write written

/-- Writing reports changes their files alone. -/
theorem writeReports_writes (order : List ReportFormat) :
    Obeys (Writes (order.filterMap (List.lookup · reports)))
      (order.forM (writeReport around pattern vtable reports)) := by
  refine obeys_forM fun format member => ?_
  refine (writeReport_writes around pattern vtable reports format).weaken fun written => written.mono ?_
  intro path wanted
  exact List.mem_filterMap.mpr ⟨format, member, Option.mem_toList.mp wanted⟩

end Report

section Reports

variable (around : Scene) (pattern : String) (vtable : Vtable) {dir front : String}
  {wanted order : List ReportFormat} {console later : Console}

/-- The files of reports that are written are those of their formats. -/
theorem eq_reportFile_of_mem {path : Path}
    (member : path ∈ order.filterMap (List.lookup · (reportsIn dir front wanted))) :
    ∃ format ∈ order, format ∈ wanted ∧ path = reportFile dir front format := by
  obtain ⟨format, inOrder, found⟩ := List.mem_filterMap.mp member
  rw [lookup_reportsIn] at found
  split at found
  next isWanted => exact ⟨format, inOrder, isWanted, (Option.some.inj found).symm⟩
  next => simp at found

/-- A report that was asked for stands in its file once it is written. -/
theorem contents_writeReport {format : ReportFormat} (isWanted : format ∈ wanted)
    (written : (writeReport around pattern vtable (reportsIn dir front wanted) format).run.run console =
      (.ok (), later)) :
    ∃ place, later.tree.locate (reportFile dir front format) = .ok place ∧ later.tree.contents? place =
      some (reportBytes around pattern vtable (reportFile dir front format) format) := by
  have found : (reportsIn dir front wanted).lookup format = some (reportFile dir front format) := by
    rw [lookup_reportsIn, if_pos isWanted]
  rw [writeReport_of_some around pattern vtable found] at written
  cases put : console.tree.write (reportFile dir front format)
      (reportBytes around pattern vtable (reportFile dir front format) format) with
  | error fault =>
    simp only [put] at written
    cases written
  | ok tree =>
    simp only [put] at written
    cases written
    exact Tree.contents_of_write (readable_reportFile dir front format) put

/-- When all reports are written, each stands in its file: those that are written behind it lie elsewhere. -/
theorem contents_writeReports (distinct : order.Nodup)
    (written : (order.forM (writeReport around pattern vtable (reportsIn dir front wanted))).run.run console =
      (.ok (), later)) (format : ReportFormat) (inOrder : format ∈ order) (isWanted : format ∈ wanted) :
    ∃ place, later.tree.locate (reportFile dir front format) = .ok place ∧ later.tree.contents? place =
      some (reportBytes around pattern vtable (reportFile dir front format) format) := by
  induction order generalizing console with
  | nil => simp at inOrder
  | cons first rest inductionHypothesis =>
    obtain ⟨notAgain, distinct⟩ := List.nodup_cons.mp distinct
    rw [run_forM_cons] at written
    obtain ⟨_, between, head, onward⟩ := run_bind_eq_ok.mp written
    by_cases other : format ∈ rest
    · exact inductionHypothesis distinct onward other
    · obtain rfl : format = first := (List.mem_cons.mp inOrder).resolve_right other
      obtain ⟨place, here, contents⟩ := contents_writeReport around pattern vtable isWanted head
      have behind := writeReports_writes around pattern vtable (reportsIn dir front wanted) rest between
      rw [onward] at behind
      refine ⟨place, behind.locate.mpr here, ?_⟩
      rw [behind.files place ?_, contents]
      intro path member again
      obtain ⟨second, inRest, -, rfl⟩ := eq_reportFile_of_mem member
      exact notAgain (eq_of_locate_reportFile dir front here again ▸ inRest)

/-- When all formats are gone through, each report that was asked for stands in its file. -/
theorem contents_allReports {formats : List ReportFormat}
    (written : ([ReportFormat.json, .csv, .markdown].forM
      (writeReport around pattern vtable (reportsIn dir front formats.eraseDups))).run.run console = (.ok (), later))
    (format : ReportFormat) (isWanted : format ∈ formats) :
    ∃ place, later.tree.locate (reportFile dir front format) = .ok place ∧ later.tree.contents? place =
      some (reportBytes around pattern vtable (reportFile dir front format) format) :=
  contents_writeReports around pattern vtable (by decide) written format (by cases format <;> decide)
    (List.mem_eraseDups.mpr isWanted)

/-- Where the paths of reports are refused, nothing is written. -/
theorem writeReport_of_zero (zero : ∀ format, Tree.holdsZero (reportFile dir front format) = true)
    (format : ReportFormat) :
    Obeys Eq (writeReport around pattern vtable (reportsIn dir front wanted) format) := by
  intro console
  cases found : (reportsIn dir front wanted).lookup format with
  | none => rw [writeReport_of_none around pattern vtable found]
  | some path =>
    rw [writeReport_of_some around pattern vtable found]
    cases put : console.tree.write path (reportBytes around pattern vtable path format) with
    | error fault => rfl
    | ok tree =>
      rw [lookup_reportsIn] at found
      split at found
      · obtain rfl := Option.some.inj found
        exact absurd ((zero format).symm.trans (Tree.not_holdsZero_of_write put)) (by simp)
      · simp at found

/-- When a report cannot be written although its path is not refused, something broke. -/
theorem failure_writeReport {format : ReportFormat} {failure : Failure}
    (valid : Tree.holdsZero (reportFile dir front format) = false)
    (failed : (writeReport around pattern vtable (reportsIn dir front wanted) format).run.run console =
      (.error failure, later)) : ∃ cause, failure = .broken cause := by
  by_cases isWanted : format ∈ wanted
  · have found : (reportsIn dir front wanted).lookup format = some (reportFile dir front format) := by
      rw [lookup_reportsIn, if_pos isWanted]
    rw [writeReport_of_some around pattern vtable found] at failed
    cases put : console.tree.write (reportFile dir front format)
        (reportBytes around pattern vtable (reportFile dir front format) format) with
    | ok tree =>
      simp only [put] at failed
      cases failed
    | error fault =>
      simp only [put] at failed
      cases failed
      refine ⟨_, fileFailure_broken ?_⟩
      rintro rfl
      exact absurd (valid.symm.trans (Tree.holdsZero_of_write put)) (by simp)
  · have unwanted : (reportsIn dir front wanted).lookup format = none := by
      rw [lookup_reportsIn, if_neg isWanted]
    rw [writeReport_of_none around pattern vtable unwanted] at failed
    cases failed

/-- When reports cannot be written, something broke, or nothing is changed. -/
theorem failure_writeReports {failure : Failure}
    (failed : (order.forM (writeReport around pattern vtable (reportsIn dir front wanted))).run.run console =
      (.error failure, later)) : (∃ cause, failure = .broken cause) ∨ later = console := by
  cases zero : Tree.holdsZero (reportFile dir front .json) with
  | true =>
    have all (format : ReportFormat) : Tree.holdsZero (reportFile dir front format) = true :=
      (holdsZero_reportFile dir front format .json).trans zero
    have unchanged : Obeys Eq (order.forM (writeReport around pattern vtable (reportsIn dir front wanted))) :=
      obeys_forM fun format _ => writeReport_of_zero around pattern vtable all format
    exact .inr ((unchanged console).trans (congrArg Prod.snd failed)).symm
  | false =>
    refine .inl ?_
    induction order generalizing console with
    | nil => cases failed
    | cons first rest inductionHypothesis =>
      rw [run_forM_cons] at failed
      rcases run_bind_eq_error.mp failed with head | ⟨_, between, head, failed⟩
      · exact failure_writeReport around pattern vtable
          ((holdsZero_reportFile dir front first .json).trans zero) head
      · exact inductionHypothesis failed

end Reports

end ComLayout.Run
