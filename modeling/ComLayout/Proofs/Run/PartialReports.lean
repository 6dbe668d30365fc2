import ComLayout.Proofs.Run.WrittenReports

/-!
# Reports that are written in part

Reports are written one after the other, and none is taken back when a later one cannot be written. Before the
lookup the place of each is looked at, and their files lie beside one another: where one of them can be written, so
can the others, unless a directory stands in their place. Only where overwriting is allowed does such a directory go
unnoticed, and then the reports before it stay. A run in which something breaks before its lookup comes to a vtable
writes none.
-/

namespace ComLayout.Run

open Run.Action Console

section Steps

/-- Where something is done for each item in turn and fails, it is done for the items before the one that it fails
for, and what was done for these stays. -/
theorem forM_stops {α : Type} {f : α → Action Unit} {items : List α} {console later : Console} {failure : Failure}
    (failed : (items.forM f).run.run console = (.error failure, later)) :
    ∃ done blocked left between, items = done ++ blocked :: left ∧
      (done.forM f).run.run console = (.ok (), between) ∧ (f blocked).run.run between = (.error failure, later) := by
  induction items generalizing console with
  | nil => cases failed
  | cons first rest inductionHypothesis =>
    rw [run_forM_cons] at failed
    rcases run_bind_eq_error.mp failed with here | ⟨_, between, here, behind⟩
    · exact ⟨[], first, rest, console, rfl, rfl, here⟩
    · obtain ⟨done, blocked, left, further, rfl, before, stops⟩ := inductionHypothesis behind
      refine ⟨first :: done, blocked, left, further, rfl, ?_, stops⟩
      rw [run_forM_cons]
      exact run_bind_eq_ok.mpr ⟨(), between, here, before⟩

/-- A file that cannot be written at the place of its path is a directory. -/
theorem isDir_of_write {tree : Tree} {path : Path} {place : Location} {bytes : ByteArray} {fault : FileFault}
    (found : tree.locate path = .ok place) (failed : tree.write path bytes = .error fault) :
    tree.isDir place = true := by
  by_contra free
  simp [Tree.write, Tree.writable, found, free, bind, Except.bind] at failed

/-- Where one report has a place, so has each other that is looked for without a fault. -/
theorem exists_locate_reportFile {dir front : String} {tree : Tree} {format other : ReportFormat} {place : Location}
    {entry : Option Location} (found : tree.locate (reportFile dir front format) = .ok place)
    (lookedAt : tree.find? (reportFile dir front other) = .ok entry) :
    ∃ beside, tree.locate (reportFile dir front other) = .ok beside := by
  have valid : Tree.holdsZero (reportFile dir front other) = false := by
    rw [holdsZero_reportFile dir front other format, Bool.eq_false_iff]
    intro zero
    rw [(Tree.locate_zero tree _).mpr zero] at found
    cases found
  have short : tree.locate (reportFile dir front other) ≠ .error .tooLong := by
    intro long
    rw [Tree.find?, long] at lookedAt
    cases lookedAt
  obtain ⟨anchor, names, last, beside⟩ := exists_reportFile_eq dir front
  rw [beside] at found valid short ⊢
  exact Tree.locate_beside found (ne_up_extension last other) valid short

end Steps

section Reports

variable (around : Scene) (pattern : String) (vtable : Vtable) {dir front : String}
  {wanted order : List ReportFormat} {console later : Console} {failure : Failure}

/-- Where reports are written in turn and one fails, it is one that is asked for, those before it are written, and
nothing else is changed. -/
theorem writeReports_stops
    (failed : (order.forM (writeReport around pattern vtable (reportsIn dir front wanted))).run.run console =
      (.error failure, later)) :
    ∃ done blocked left fault, order = done ++ blocked :: left ∧ blocked ∈ wanted ∧
      (done.forM (writeReport around pattern vtable (reportsIn dir front wanted))).run.run console = (.ok (), later) ∧
      later.tree.write (reportFile dir front blocked)
        (reportBytes around pattern vtable (reportFile dir front blocked) blocked) = .error fault := by
  obtain ⟨done, blocked, left, between, cut, before, stops⟩ := forM_stops failed
  by_cases isWanted : blocked ∈ wanted
  · have listed : (reportsIn dir front wanted).lookup blocked = some (reportFile dir front blocked) := by
      rw [lookup_reportsIn, if_pos isWanted]
    rw [writeReport_of_some around pattern vtable listed] at stops
    split at stops
    next => cases stops
    next fault refused =>
      obtain ⟨-, rfl⟩ := Prod.mk.inj stops
      exact ⟨done, blocked, left, fault, cut, isWanted, before, refused⟩
  · have unlisted : (reportsIn dir front wanted).lookup blocked = none := by
      rw [lookup_reportsIn, if_neg isWanted]
    rw [writeReport_of_none around pattern vtable unlisted] at stops
    cases stops

/-- Reports that are written change no other file. -/
theorem contents_beside_reports {done : List ReportFormat}
    (before : (done.forM (writeReport around pattern vtable (reportsIn dir front wanted))).run.run console =
      (.ok (), later)) (place : Location)
    (elsewhere : ∀ format ∈ done, format ∈ wanted → later.tree.locate (reportFile dir front format) ≠ .ok place) :
    later.tree.contents? place = console.tree.contents? place := by
  have writes := writeReports_writes around pattern vtable (reportsIn dir front wanted) done console
  rw [before] at writes
  refine writes.files place fun path listed here => ?_
  obtain ⟨format, isDone, isWanted, rfl⟩ := eq_reportFile_of_mem listed
  exact elsewhere format isDone isWanted (writes.locate.mpr here)

/-- What stops reports from being written once one was written, if it was looked at beforehand what is in the place of
the next, is a directory that was seen there. -/
theorem directory_of_stop {done : List ReportFormat} {blocked : ReportFormat} {fault : FileFault} {bytes : ByteArray}
    (distinct : done.Nodup)
    (before : (done.forM (writeReport around pattern vtable (reportsIn dir front wanted))).run.run console =
      (.ok (), later))
    (refused : later.tree.write (reportFile dir front blocked) bytes = .error fault)
    (some_ : ∃ format ∈ done, format ∈ wanted) {ready : Console} (told : ready.Tells console)
    {seen : Option Location} (lookedAt : ready.tree.find? (reportFile dir front blocked) = .ok seen) :
    ∃ place, seen = some place ∧ later.tree.locate (reportFile dir front blocked) = .ok place ∧
      later.tree.isDir place = true := by
  obtain ⟨format, isDone, isWanted⟩ := some_
  have writes := writeReports_writes around pattern vtable (reportsIn dir front wanted) done console
  rw [before] at writes
  obtain ⟨written, located, -⟩ := contents_writeReports around pattern vtable distinct before format isDone isWanted
  obtain ⟨place, beside⟩ := exists_locate_reportFile (told.locate.mp (writes.locate.mp located)) lookedAt
  have here : later.tree.locate (reportFile dir front blocked) = .ok place :=
    writes.locate.mpr (told.locate.mpr beside)
  have isDir := isDir_of_write here refused
  have wasDir : ready.tree.isDir place = true := by rw [← told.dirs, ← writes.dirs, isDir]
  have found := Tree.find?_eq_some.mpr ⟨beside, Tree.exists_of_isDir wasDir⟩
  exact ⟨place, Except.ok.inj (lookedAt.symm.trans found), here, isDir⟩

end Reports

section Delivery

variable {around : Scene} {pattern : String} {vtable : Vtable}

/-- What a delivery that stops at a report makes of a tree. The report was asked for and cannot be written. Those in
the formats before it are written in full if they are asked for, and apart from what is exempt no other file is
changed. If there is such a report, a directory stands in the place of the one that cannot be written, which
overwriting was allowed for. -/
structure StopsAt (around : Scene) (pattern : String) (vtable : Vtable) (dir front : String)
    (output : OutputSettings) (before after : Tree) (exempt : Location → Prop) (done : List ReportFormat)
    (blocked : ReportFormat) : Prop where
  order : ∃ left, [ReportFormat.json, .csv, .markdown] = done ++ blocked :: left
  wanted : blocked ∈ output.formats
  refused : ∃ fault, after.write (reportFile dir front blocked)
    (reportBytes around pattern vtable (reportFile dir front blocked) blocked) = .error fault
  written : ∀ format ∈ done, format ∈ output.formats → ∃ place,
    after.locate (reportFile dir front format) = .ok place ∧ after.contents? place =
      some (reportBytes around pattern vtable (reportFile dir front format) format)
  others : ∀ place, ¬ exempt place → (∀ format ∈ done, format ∈ output.formats →
      after.locate (reportFile dir front format) ≠ .ok place) →
    after.contents? place = before.contents? place
  directory : (∃ format ∈ done, format ∈ output.formats) → output.overwrite.truthy = true ∧
    ∃ place, after.locate (reportFile dir front blocked) = .ok place ∧ after.isDir place = true

/-- Reports that cannot all be written stop at one of them. -/
theorem stopsAt_of_unwritten {output : OutputSettings} {console ready looked later : Console}
    {reports : List (ReportFormat × Path)} {failure : Failure} (settled : Settled output console reports ready)
    (told : ready.Tells looked)
    (writing : ([ReportFormat.json, .csv, .markdown].forM
      (writeReport around pattern vtable reports)).run.run looked = (.error failure, later)) :
    ∃ dir front tree done blocked, output.outDir = .text dir ∧
      output.outPrefix.display? = some front ∧ console.tree.makeDirs (Path.ofString dir) = (.ok (), tree) ∧
      ready = { console with tree } ∧
      StopsAt around pattern vtable dir front output looked.tree later.tree (fun _ => False) done blocked := by
  cases settled with
  | nothing =>
    have none : [] = reportsIn "" "" [] := rfl
    rw [none] at writing
    obtain ⟨_, _, _, _, -, isWanted, -⟩ := writeReports_stops around pattern vtable writing
    exact absurd isWanted List.not_mem_nil
  | below dir front made _ inDir display making lookedAt =>
    obtain ⟨done, blocked, left, fault, order, isWanted, before, refused⟩ :=
      writeReports_stops around pattern vtable writing
    have wanted : blocked ∈ output.formats := List.mem_eraseDups.mp isWanted
    have distinct : (done ++ blocked :: left).Nodup := order ▸ by decide
    refine ⟨dir, front, made, done, blocked, inDir, display, making, rfl,
      { order := ⟨left, order⟩
        wanted
        refused := ⟨fault, refused⟩
        written := ?written
        others := ?others
        directory := ?directory }⟩
    case written =>
      exact fun format isDone isWanted => contents_writeReports around pattern vtable distinct.of_append_left before
        format isDone (List.mem_eraseDups.mpr isWanted)
    case others =>
      refine fun place _ elsewhere => contents_beside_reports around pattern vtable before place ?_
      exact fun format isDone isWanted => elsewhere format isDone (List.mem_eraseDups.mp isWanted)
    case directory =>
      intro some_
      obtain ⟨seen, lookedAt, free⟩ := lookedAt blocked wanted
      obtain ⟨place, sees, directory⟩ := directory_of_stop around pattern vtable distinct.of_append_left before refused
        (by simpa using some_) told lookedAt
      refine ⟨?_, place, directory⟩
      rw [← Bool.not_eq_false]
      intro kept
      exact absurd (sees.symm.trans (free kept)) (by simp)

end Delivery

/-- The lookup of a run comes to a vtable. -/
def Finds (around : Scene) (settings : Settings) (vtable : Vtable) : Prop :=
  settings.dryRun.truthy = false ∧ ∃ logFile tree, openLog around.tree settings.logging.logFile = (.ok logFile, tree) ∧
    Reaches around settings (opened around settings logFile tree) vtable

/-- What a run leaves that looked up a vtable and stopped at one of its reports. -/
structure LeavesPart (around : Scene) (arguments : List String) (settings : Settings)
    (dir front pattern : String) (vtable : Vtable) (done : List ReportFormat) (blocked : ReportFormat) : Prop where
  inDir : settings.output.outDir = .text dir
  display : settings.output.outPrefix.display? = some front
  path : settings.path = .text pattern
  found : LooksUp around settings dir vtable
  stops : StopsAt around pattern vtable dir front settings.output around.tree (scan around arguments).tree
    (IsLogFile around arguments) done blocked

variable {around : Scene} {arguments : List String} {settings : Settings}

/-- Reports are written one after the other, up to one that cannot be written.

A run in which something breaks has come to no vtable and changes no file but its log file, or it has come to one and
stops at a report that was asked for and cannot be written. Then the reports that were asked for in the formats before
it are written in full, and no other file is changed but the log file. There are such reports only if overwriting is
allowed and a directory stands in the place of the one that cannot be written. Files are those of the tree below the
working directory.

Nothing is changed before a vtable is delivered, and what is printed afterwards leads to other codes. So reports
were written in turn, those before the first that fails stay, and none of them has the place of another file. Each
place had been looked at before the lookup. Where one report was written, its directory exists, and only a directory
keeps the next from being written there; it was seen, and tolerated because overwriting is allowed. -/
theorem scan_stops_at_directory (around : Scene) (arguments : List String)
    (broken : (scan around arguments).ending = .exited 3) :
    ((∀ settings, Effective around arguments settings → ∀ vtable, ¬ Finds around settings vtable) ∧
      ∀ place, ¬ IsLogFile around arguments place →
        (scan around arguments).tree.contents? place = around.tree.contents? place) ∨
      ∃ settings dir front pattern vtable done blocked, Effective around arguments settings ∧
        Finds around settings vtable ∧ LeavesPart around arguments settings dir front pattern vtable done blocked := by
  by_cases some_ : ∃ settings, Effective around arguments settings
  case neg =>
    have none : ∀ settings, ¬ Effective around arguments settings :=
      fun settings effective => some_ ⟨settings, effective⟩
    exact .inl ⟨fun settings effective => absurd effective (none settings),
      fun place _ => congrArg (·.contents? place) (tree_of_not_effective none)⟩
  obtain ⟨settings, effective⟩ := some_
  obtain ⟨logFile, tree, result, later, performs⟩ := effective.exists_performs broken
  have code : endingOf result = .exited 3 := performs.ending_eq.symm.trans broken
  have reaches {others : Settings} (also : Effective around arguments others) {vtable : Vtable}
      (finds : Finds around others vtable) : settings.dryRun.truthy = false ∧
        Reaches around settings (opened around settings logFile tree) vtable := by
    obtain rfl := effective.unique also
    obtain ⟨wet, logFile', tree', opening', reached⟩ := finds
    obtain ⟨same, rfl⟩ := Prod.mk.inj (performs.opening.symm.trans opening')
    obtain rfl := Except.ok.inj same
    exact ⟨wet, reached⟩
  rw [performs.tree_eq]
  cases wet : settings.dryRun.truthy with
  | true =>
    refine .inl ⟨fun _ also vtable finds => ?_, performs.untouched (performs.spares wet) (.refl later)⟩
    exact Bool.false_ne_true ((reaches also finds).1.symm.trans wet)
  | false =>
    cases performs.course wet with
    | stopped spared lost =>
      exact .inl ⟨fun _ also vtable finds => lost vtable (reaches also finds).2,
        performs.untouched spared (.refl later)⟩
    | @reached reports ready looked pattern name vtable _ _ settled spared path interface found told delivered
        reached =>
      have begun := performs.untouched (spared.trans told.spares) delivered.continues
      cases delivered with
      | written writing closed => cases closed <;> cases code
      | unwritten writing =>
        obtain ⟨dir, front, made, finished, blocked, inDir, display, making, rfl, stops⟩ :=
          stopsAt_of_unwritten settled told writing
        refine .inr ⟨settings, dir, front, pattern, vtable, finished, blocked, effective,
          ⟨wet, logFile, tree, performs.opening, reached⟩,
          { inDir
            display
            path
            found := ⟨pattern, name, logFile, tree, made, path, interface, performs.opening, making, found⟩
            stops := ?_ }⟩
        rw [performs.tree_eq]
        exact { stops with
          others := fun place other elsewhere =>
            (stops.others place id elsewhere).trans (begun place other) }

/-- A header that declares an interface, and a directory in the place of a report. -/
def jam : Scene where
  tree := ⟨[["out", "vtable.csv"]], [(["pen.h"],
    "MIDL_INTERFACE(\"00000000-0000-0000-0000-000000000001\")\nIPen : public IUnknown\n\x7b\n\x7d;\n".toUTF8)],
    by simp [isEntryName]⟩
  working := ["jam"]
  home := ⟨.root, ["home"]⟩
  environment := []
  terminal := false
  logTime := "now"
  reportTime := "now"

/-- A lookup that may overwrite reports, the last of which is the log file as well. -/
def jamArguments : List String :=
  ["IPen", "pen.h", "--output", "json,csv,md", "--out-dir", "out", "--overwrite", "--quiet", "--log-file",
    "out/vtable.md"]

/-- The settings of that lookup. -/
def jamSettings : Settings where
  path := .text "pen.h"
  configPath := .null
  dryRun := .bool false
  lookup := ⟨.text "IPen", .bool false⟩
  files := ⟨Settings.standardExclude, .int Filter.standardLimit⟩
  output := ⟨[.json, .csv, .markdown], .text "out", .text "vtable", .bool true⟩
  logging := ⟨.bool true, .bool true, .bool false, .text "out/vtable.md", .text "vtabscan"⟩

/-- The vtable that it finds. -/
def jamVtable : Vtable := ⟨"IPen", [], some "pen.h"⟩

/-- They take effect. -/
theorem jam_effective : Effective jam jamArguments jamSettings := by
  let given : CommandLine.Given := ⟨[some "IPen", some "pen.h"], [("output", .text "json,csv,md"),
    ("out-dir", .text "out"), ("overwrite", .bool true), ("quiet", .bool true), ("log-file", .text "out/vtable.md")]⟩
  have noFile : Layers.fromFile jam.tree jam.home given = .ok [] := by
    have absent : Layers.file? jam.tree jam.home given = none := by decide +kernel
    simp only [Layers.fromFile, absent]
  have noVariable : Environment.layer jam.environment = .ok [] := rfl
  refine ⟨given, rfl, ?_⟩
  rw [Settings.resolve, Layers.all, noFile, noVariable]
  rfl

/-- The vtable is found. -/
theorem jam_looksUp : LooksUp jam jamSettings "out" jamVtable := by
  let logFile := Path.ofString "out/vtable.md"
  let tree := (openLog jam.tree jamSettings.logging.logFile).2
  let made := (tree.makeDirs (Path.ofString "out")).2
  have opens : (openLog jam.tree jamSettings.logging.logFile).1 = .ok (some logFile) := by decide +kernel
  have makes : (tree.makeDirs (Path.ofString "out")).1 = .ok () := by decide +kernel
  refine ⟨"pen.h", "IPen", some logFile, tree, made, rfl, rfl, Prod.ext opens rfl, Prod.ext makes rfl, ?_⟩
  decide +kernel

/-- The vtable is found and something breaks. Yet one report has been written that was not there before, and the log
file stands in the place of another. -/
theorem jam_leaves_part :
    let json : Location := ["out", "vtable.json"]
    let markdown : Location := ["out", "vtable.md"]
    Effective jam jamArguments jamSettings ∧ LooksUp jam jamSettings "out" jamVtable ∧
      (scan jam jamArguments).ending = .exited 3 ∧
      ReportFormat.json ∈ jamSettings.output.formats ∧ ReportFormat.markdown ∈ jamSettings.output.formats ∧
      (scan jam jamArguments).tree.locate (reportFile "out" "vtable" .json) = .ok json ∧
      (scan jam jamArguments).tree.locate (reportFile "out" "vtable" .markdown) = .ok markdown ∧
      jam.tree.contents? json = none ∧ (scan jam jamArguments).tree.contents? json ≠ none ∧
      jam.tree.contents? markdown = none ∧ (scan jam jamArguments).tree.contents? markdown ≠ none := by
  refine ⟨jam_effective, jam_looksUp, ?_⟩
  decide +kernel

/-- That run breaks, and changes a file that is not its log file. -/
theorem jam_outcome :
    (scan jam jamArguments).ending = .exited 3 ∧
      (scan jam jamArguments).tree.contents? ["out", "vtable.json"] ≠ jam.tree.contents? ["out", "vtable.json"] ∧
      ((scan jam jamArguments).tree.locate (logPath "out/vtable.md")).toOption ≠ some ["out", "vtable.json"] := by
  decide +kernel

/-- That run stops at the directory in the place of a report, and leaves the report before it. -/
theorem jam_stops_at_directory :
    (scan jam jamArguments).ending = .exited 3 ∧
      ∃ settings dir front pattern vtable done blocked, Effective jam jamArguments settings ∧
        Finds jam settings vtable ∧ LeavesPart jam jamArguments settings dir front pattern vtable done blocked := by
  obtain ⟨broken, changed, elsewhere⟩ := jam_outcome
  refine ⟨broken, (scan_stops_at_directory jam jamArguments broken).resolve_left fun nothing => ?_⟩
  refine changed (nothing.2 _ ?_)
  rintro ⟨settings, spelling, effective, isText, -, here⟩
  obtain rfl := jam_effective.unique effective
  cases isText
  exact elsewhere (congrArg Except.toOption here)

end ComLayout.Run
