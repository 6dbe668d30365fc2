import ComLayout.Proofs.Run.Untouched
import ComLayout.Proofs.Settings.Precedence

/-!
# The reports of a run

A run that succeeds and was asked for reports prints one line for each of their formats, in the order in
which these are first named, and the lines are the paths of the files that it wrote besides its log file.
All files are reports of the same vtable, which is the one that was looked up.
-/

namespace ComLayout

/-- What has no two equal values under a name keeps its distinct items when these are named. -/
theorem eraseDups_map {α β : Type} [DecidableEq α] [DecidableEq β] {f : α → β}
    (distinct : Function.Injective f) (items : List α) :
    (items.map f).eraseDups = items.eraseDups.map f := by
  induction length : items.length using Nat.strongRecOn generalizing items with
  | ind n inductionHypothesis =>
    cases items with
    | nil => rfl
    | cons first rest =>
      have same : (fun b => !b == f first) ∘ f = fun a => !a == first := by
        funext a
        simp [distinct.eq_iff]
      rw [List.map_cons, List.eraseDups_cons, List.eraseDups_cons, List.map_cons, List.filter_map, same]
      congr 1
      refine inductionHypothesis _ ?_ (rest.filter fun a => !a == first) rfl
      rw [← length, List.length_cons]
      exact Nat.lt_succ_of_le (List.length_filter_le _ _)

namespace ReportFormat

/-- The usual name of a format, of which one has two. -/
def usualName (name : String) : String := if name = "markdown" then "md" else name

/-- No two formats have the same name. -/
theorem name_injective : Function.Injective ReportFormat.name := by
  intro format other same
  exact Option.some.inj ((ofName_name format).symm.trans (same ▸ ofName_name other))

/-- A format that is named has the usual name. -/
theorem usualName_of_ofName {name : String} {format : ReportFormat} (named : ofName? name = some format) :
    usualName name = format.name := by
  unfold ofName? at named
  split at named
  next same =>
    cases named
    rw [same]
    rfl
  next =>
    split at named
    next same =>
      cases named
      rw [same]
      rfl
    next =>
      split at named
      next same =>
        cases named
        rcases same with rfl | rfl <;> rfl
      next => cases named

/-- Formats that are named have the usual names. -/
theorem map_usualName {names : List String} {formats : List ReportFormat}
    (named : names.map ofName? = formats.map some) : names.map usualName = formats.map name := by
  induction names generalizing formats with
  | nil =>
    obtain rfl := List.map_eq_nil_iff.mp named.symm
    rfl
  | cons first rest inductionHypothesis =>
    cases formats with
    | nil => simp at named
    | cons format others =>
      rw [List.map_cons, List.map_cons] at named
      obtain ⟨here, behind⟩ := List.cons.inj named
      rw [List.map_cons, List.map_cons, usualName_of_ofName here, inductionHypothesis behind]

/-- A format is listed exactly if it is named. -/
theorem mem_of_named {names : List String} {formats : List ReportFormat}
    (named : names.map ofName? = formats.map some) {format : ReportFormat} :
    format ∈ formats ↔ ∃ name ∈ names, ofName? name = some format := by
  rw [← List.mem_map_of_injective (Option.some_injective _), ← named, List.mem_map]

/-- Values that stand for formats are texts that name them. -/
theorem exists_names {items : List Value} {formats : List ReportFormat}
    (read : items.mapM Settings.formatOf = .ok formats) :
    ∃ names : List String, items = names.map Value.text ∧ names.map ofName? = formats.map some := by
  induction items generalizing formats with
  | nil =>
    obtain rfl := Except.ok.inj read
    exact ⟨[], rfl, rfl⟩
  | cons item rest inductionHypothesis =>
    rw [List.mapM_cons] at read
    obtain ⟨format, first, read⟩ := bind_eq_ok.mp read
    obtain ⟨others, later, read⟩ := bind_eq_ok.mp read
    obtain rfl := Except.ok.inj read
    obtain ⟨name, rfl, found⟩ := Setting.formatOf_eq_ok first
    obtain ⟨names, rfl, named⟩ := inductionHypothesis later
    refine ⟨name :: names, rfl, ?_⟩
    rw [List.map_cons, List.map_cons, found, named]

end ReportFormat

namespace Run

open Console

variable {around : Scene} {arguments : List String} {settings : Settings}

/-- The names of formats that the settings list, each as it is given. -/
def ListsFormats (around : Scene) (arguments names : List String) : Prop :=
  ∃ given table unchecked listed, CommandLine.scan.read arguments = .ok given ∧
    Layers.all around.tree around.home around.environment given = .ok table ∧
    Settings.ofTable table = .ok (unchecked, listed) ∧ Settings.members listed = .ok (names.map Value.text)

/-- Settings that take effect list formats by their names. -/
theorem Effective.exists_listsFormats (effective : Effective around arguments settings) :
    ∃ names, ListsFormats around arguments names ∧
      names.map ReportFormat.ofName? = settings.output.formats.map some := by
  obtain ⟨given, read, resolved⟩ := effective
  obtain ⟨table, unchecked, listed, all, cut, checked⟩ := Settings.resolve_eq_ok resolved
  obtain ⟨-, items, members, formats⟩ := Settings.check_eq_ok checked
  obtain ⟨names, rfl, named⟩ := ReportFormat.exists_names formats
  exact ⟨names, ⟨given, table, unchecked, listed, read, all, cut, members⟩, named⟩

/-- The settings list formats in one way only. -/
theorem ListsFormats.unique {names others : List String} (lists : ListsFormats around arguments names)
    (also : ListsFormats around arguments others) : names = others := by
  obtain ⟨given, table, unchecked, listed, read, all, cut, members⟩ := lists
  obtain ⟨given', table', unchecked', listed', read', all', cut', members'⟩ := also
  obtain rfl := Except.ok.inj (read.symm.trans read')
  obtain rfl := Except.ok.inj (all.symm.trans all')
  obtain ⟨rfl, rfl⟩ := Prod.mk.inj (Except.ok.inj (cut.symm.trans cut'))
  have same := Except.ok.inj (members.symm.trans members')
  exact List.map_injective_iff.mpr (fun _ _ => Value.text.inj) same

/-- The file of the report under the name of a format. -/
def namedFile (dir front name : String) : Path :=
  below (Path.ofString dir) (Path.ofString (front ++ "." ++ name))

/-- What a run leaves that looked up a vtable and wrote reports of it. -/
structure Leaves (around : Scene) (arguments names : List String) (settings : Settings)
    (dir front pattern : String) (vtable : Vtable) : Prop where
  inDir : settings.output.outDir = .text dir
  display : settings.output.outPrefix.display? = some front
  path : settings.path = .text pattern
  found : LooksUp around settings dir vtable
  /-- One line for each distinct format, in the order in which they are first named. -/
  output : (scan around arguments).output = String.join
    ((names.map ReportFormat.usualName).eraseDups.map fun name => (namedFile dir front name).toString ++ "\n")
  /-- Each name is that of a format, whose file holds its report of the vtable. -/
  written : ∀ name ∈ names, ∃ format place, ReportFormat.ofName? name = some format ∧
    (scan around arguments).tree.locate (namedFile dir front format.name) = .ok place ∧
    (scan around arguments).tree.contents? place =
      some (reportBytes around pattern vtable (namedFile dir front format.name) format)
  /-- No other file is written but the log file. -/
  others : ∀ place, ¬ IsLogFile around arguments place →
    (∀ name ∈ names, (scan around arguments).tree.locate
      (namedFile dir front (ReportFormat.usualName name)) ≠ .ok place) →
    (scan around arguments).tree.contents? place = around.tree.contents? place

/-- What is told of reports in some formats, by the names of these. -/
theorem printed_closing (vtable : Vtable) {dir front : String} {names : List String} {formats : List ReportFormat}
    (filled : formats ≠ []) (named : names.map ReportFormat.ofName? = formats.map some) :
    printed (closing vtable (reportsIn dir front formats.eraseDups)) = String.join
      ((names.map ReportFormat.usualName).eraseDups.map fun name =>
        (namedFile dir front name).toString ++ "\n") := by
  rw [closing_reportsIn vtable dir front filled, ReportFormat.map_usualName named,
    eraseDups_map ReportFormat.name_injective, printed, reportsIn, List.map_map, List.map_map, List.map_map]
  rfl

/-- The reports of a run are those that it tells of.

A run that succeeds, is no dry run and is asked for reports prints one line for each of the distinct formats, in the
order in which they are first named; the lines are the paths of the reports. Each report holds what its format makes
of the one vtable that was looked up, and no other file is written but the log file. Formats may be named more than
once and by both of their names, in the settings of any source. Paths are taken from the working directory: what a
directory for reports outside of it would hold is not told.

A run that succeeds has settled its reports, come to a vtable and delivered it, and all that was to be told has
been printed, for a line that is refused is no success. The reports lie beside one another and differ in the ending of
their names, so none replaces another, and by induction over the formats each stands in its file when all are written.
What else has changed would be a report of these or the log file. -/
theorem scan_leaves_reports {names : List String} (effective : Effective around arguments settings)
    (lists : ListsFormats around arguments names) (some : names ≠ [])
    (wet : settings.dryRun.truthy = false) (succeeded : (scan around arguments).ending = .exited 0) :
    ∃ dir front pattern vtable, Leaves around arguments names settings dir front pattern vtable := by
  obtain ⟨_, also, named⟩ := effective.exists_listsFormats
  obtain rfl := lists.unique also
  obtain ⟨logFile, tree, result, later, performs⟩ := effective.exists_performs succeeded
  obtain rfl : result = .ok () := by
    rcases result with failure | ⟨⟩
    · exact absurd (Ending.exited.inj (performs.ending_eq.symm.trans succeeded)) (verdict_code failure)
    · rfl
  have someFormats : settings.output.formats ≠ [] := by
    intro none
    rw [none, List.map_nil, List.map_eq_nil_iff] at named
    exact some named
  cases performs.course wet with
  | @reached reports ready looked pattern name vtable _ _ settled spared path interface found told delivered =>
    cases settled with
    | nothing none => exact absurd none someFormats
    | below dir front made _ inDir display making _ =>
      cases delivered with
      | @written full _ _ writing closed =>
        have wrote := writeReports_writes around pattern vtable
          (reportsIn dir front settings.output.formats.eraseDups) [.json, .csv, .markdown] looked
        rw [writing] at wrote
        have silent : full.output = "" := wrote.output.trans told.output
        have after : (scan around arguments).tree = full.tree := by
          rw [performs.tree_eq, closed.same]
        refine ⟨dir, front, pattern, vtable, inDir, display, path,
          ⟨pattern, name, logFile, tree, made, path, interface, performs.opening, making, found⟩, ?_, ?_, ?_⟩
        · cases closed with
          | all =>
            rw [performs.output_eq, silent, String.empty_append]
            exact printed_closing vtable someFormats named
        · intro listed member
          obtain ⟨format, wanted, isNamed⟩ := List.mem_map.mp (named ▸ List.mem_map_of_mem member)
          obtain ⟨place, here, contents⟩ := contents_allReports around pattern vtable writing format wanted
          rw [after]
          exact ⟨format, place, isNamed.symm, here, contents⟩
        · intro place other beside
          refine effective.elsewhere inDir display other fun format wanted => ?_
          obtain ⟨listed, member, isNamed⟩ := (ReportFormat.mem_of_named named).mp wanted
          have elsewhere := beside listed member
          rwa [ReportFormat.usualName_of_ofName isNamed] at elsewhere

/-- A header that declares an interface. -/
def press : Scene where
  tree := ⟨[], [(["pen.h"],
    "MIDL_INTERFACE(\"00000000-0000-0000-0000-000000000001\")\nIPen : public IUnknown\n\x7b\n\x7d;\n".toUTF8)],
    by decide⟩
  working := ["press"]
  home := ⟨.root, ["home"]⟩
  environment := []
  terminal := false
  logTime := "now"
  reportTime := "now"

/-- A lookup with reports, of which one is asked for by both names of its format. -/
def pressArguments : List String := ["IPen", "pen.h", "--output", "markdown,json,md", "--out-dir", "out"]

/-- The settings of that lookup. -/
def pressSettings : Settings where
  path := .text "pen.h"
  configPath := .null
  dryRun := .bool false
  lookup := ⟨.text "IPen", .bool false⟩
  files := ⟨Settings.standardExclude, .int Filter.standardLimit⟩
  output := ⟨[.markdown, .json, .markdown], .text "out", .text "vtable", .bool false⟩
  logging := ⟨.bool true, .bool false, .bool false, .null, .text "vtabscan"⟩

/-- Two reports are written, and told in the order in which they are first asked for. -/
theorem press_leaves_reports :
    Effective press pressArguments pressSettings ∧
      ListsFormats press pressArguments ["markdown", "json", "md"] ∧
      (scan press pressArguments).ending = .exited 0 ∧
      (scan press pressArguments).output = "out/vtable.md\nout/vtable.json\n" ∧
      ∃ dir front pattern vtable, Leaves press pressArguments ["markdown", "json", "md"] pressSettings
        dir front pattern vtable := by
  let given : CommandLine.Given :=
    ⟨[some "IPen", some "pen.h"], [("output", .text "markdown,json,md"), ("out-dir", .text "out")]⟩
  have noFile : Layers.fromFile press.tree press.home given = .ok [] := by
    have absent : Layers.file? press.tree press.home given = none := by decide +kernel
    simp only [Layers.fromFile, absent]
  have noVariable : Environment.layer press.environment = .ok [] := rfl
  have effective : Effective press pressArguments pressSettings := by
    refine ⟨given, rfl, ?_⟩
    rw [Settings.resolve, Layers.all, noFile, noVariable]
    rfl
  have lists : ListsFormats press pressArguments ["markdown", "json", "md"] := by
    refine ⟨given, ?table, ?unchecked, ?listed, rfl, ?all, ?cut, ?members⟩
    case all =>
      rw [Layers.all, noFile, noVariable]
      rfl
    case cut => rfl
    case members => rfl
  have succeeded : (scan press pressArguments).ending = .exited 0 := by decide +kernel
  exact ⟨effective, lists, succeeded, by decide +kernel,
    scan_leaves_reports effective lists (by simp) rfl succeeded⟩

end Run

end ComLayout
