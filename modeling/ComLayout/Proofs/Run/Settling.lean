import ComLayout.Proofs.Run.Telling

/-!
# Where reports are settled to be written

The files of a run's reports lie beside one another: their paths differ in the ending of the last name
only. So no two of them lead to the same place, and the character with the code zero is in all of them or
in none. Settling them makes the directory and looks at what is in the way, and changes no file.
-/

namespace ComLayout.Run

open Run.Action Console

/-- The file of the report in a format, for the spellings of a directory and of what precedes the ending. -/
def reportFile (dir front : String) (format : ReportFormat) : Path :=
  below (Path.ofString dir) (Path.ofString (front ++ "." ++ format.name))

/-- The reports in some formats, each with its file. -/
def reportsIn (dir front : String) (formats : List ReportFormat) : List (ReportFormat × Path) :=
  formats.map fun format => (format, reportFile dir front format)

/-- A format is looked up among reports: its file is found if it is one of theirs. -/
theorem lookup_reportsIn (dir front : String) (formats : List ReportFormat) (format : ReportFormat) :
    (reportsIn dir front formats).lookup format =
      if format ∈ formats then some (reportFile dir front format) else none := by
  induction formats with
  | nil => rfl
  | cons first rest inductionHypothesis =>
    rw [reportsIn, List.map_cons, List.lookup_cons]
    by_cases here : format = first
    · simp [here]
    · rw [beq_false_of_ne here]
      simp only [List.mem_cons, here, false_or]
      exact inductionHypothesis

/-- What the files of a format end in. -/
def extension (format : ReportFormat) : String := "." ++ format.name

/-- No two formats have the same ending. -/
theorem eq_of_extension {format other : ReportFormat} (same : extension format = extension other) :
    format = other := by
  have spelled := congrArg String.toList same
  rw [extension, extension, String.toList_append, String.toList_append] at spelled
  have names : format.name = other.name := String.toList_inj.mp (List.append_cancel_left spelled)
  exact Option.some.inj ((ReportFormat.ofName_name format).symm.trans
    (names ▸ ReportFormat.ofName_name other))

/-- A name that ends in a format does not lead back. -/
theorem ne_up_extension (last : String) (format : ReportFormat) : last ++ extension format ≠ ".." := by
  intro up
  have spelled := congrArg String.toList up
  rw [String.toList_append] at spelled
  have ends : (extension format).toList <:+ "..".toList := ⟨_, spelled⟩
  cases format <;> exact absurd ends (by decide)

section Beside

variable (dir front : String)

/-- The files of the reports differ in the ending of their last name only. -/
theorem exists_reportFile_eq : ∃ anchor names last, ∀ format : ReportFormat,
    reportFile dir front format = ⟨anchor, names ++ [last ++ extension format]⟩ := by
  obtain ⟨names, last, read⟩ := Path.exists_ofString_append front
  have ended (format : ReportFormat) : Path.ofString (front ++ "." ++ format.name) =
      ⟨Path.anchorOf front.toList, names ++ [last ++ extension format]⟩ := by
    rw [String.append_assoc]
    exact read _ (by cases format <;> decide) (by cases format <;> decide)
  cases free : Path.anchorOf front.toList with
  | none =>
    refine ⟨(Path.ofString dir).anchor, (Path.ofString dir).names ++ names, last, fun format => ?_⟩
    rw [reportFile, ended, free, below, if_pos rfl, Path.append, List.append_assoc]
  | root =>
    refine ⟨.root, names, last, fun format => ?_⟩
    rw [reportFile, ended, free, below, if_neg (by simp)]
  | doubleRoot =>
    refine ⟨.doubleRoot, names, last, fun format => ?_⟩
    rw [reportFile, ended, free, below, if_neg (by simp)]

/-- The path of a report can be read back. -/
theorem readable_reportFile (format : ReportFormat) : (reportFile dir front format).Readable := by
  unfold reportFile below
  split
  · exact (Path.readable_ofString dir).append (Path.readable_ofString _)
  · exact Path.readable_ofString _

/-- The character with the code zero is in the paths of all reports or in none. -/
theorem holdsZero_reportFile (format other : ReportFormat) :
    Tree.holdsZero (reportFile dir front format) = Tree.holdsZero (reportFile dir front other) := by
  obtain ⟨anchor, names, last, beside⟩ := exists_reportFile_eq dir front
  have plain (format : ReportFormat) : '\x00' ∉ (extension format).toList := by
    cases format <;> decide
  rw [beside, beside]
  simp only [Tree.holdsZero, List.any_append, List.any_cons, List.any_nil, String.toList_append,
    List.contains_eq_mem, List.mem_append, plain, or_false]

/-- A report lies at a place that ends in its format. -/
theorem getLast?_of_locate {dir front : String} {last : String} {anchor : Anchor} {names : List String}
    (beside : ∀ format : ReportFormat,
      reportFile dir front format = ⟨anchor, names ++ [last ++ extension format]⟩)
    {tree : Tree} {format : ReportFormat} {place : Location}
    (found : tree.locate (reportFile dir front format) = .ok place) :
    place.getLast? = some (last ++ extension format) := by
  rw [beside] at found
  exact Tree.getLast?_locate (ne_up_extension last format) found

/-- No two reports lie at the same place. -/
theorem eq_of_locate_reportFile {tree : Tree} {format other : ReportFormat} {place : Location}
    (found : tree.locate (reportFile dir front format) = .ok place)
    (again : tree.locate (reportFile dir front other) = .ok place) : format = other := by
  obtain ⟨anchor, names, last, beside⟩ := exists_reportFile_eq dir front
  have same : last ++ extension format = last ++ extension other :=
    Option.some.inj ((getLast?_of_locate beside found).symm.trans (getLast?_of_locate beside again))
  have spelled := congrArg String.toList same
  rw [String.toList_append, String.toList_append] at spelled
  exact eq_of_extension (String.toList_inj.mp (List.append_cancel_left spelled))

end Beside

/-- Changing the tree leaves the rest of the state. -/
theorem changeTree_run (change : Tree → Except FileFault Unit × Tree) (console : Console) :
    (changeTree change).run.run console = (match (change console.tree).1 with
      | .ok () => .ok ()
      | .error fault => .error (fileFailure fault), { console with tree := (change console.tree).2 }) := by
  have run : (changeTree change).run.run console =
      (match (change console.tree).1 with
        | .ok () => (pure () : Action Unit)
        | .error fault => failFile fault).run.run { console with tree := (change console.tree).2 } := rfl
  rw [run]
  cases (change console.tree).1 with
  | ok _ => rfl
  | error fault =>
    simp only [failFile_eq]
    rfl

/-- Changing the tree spares the files that the change keeps. -/
theorem changeTree_spares {change : Tree → Except FileFault Unit × Tree}
    (kept : ∀ tree : Tree, tree.Keeps (fun _ => False) (change tree).2) : Obeys Spares (changeTree change) := by
  intro console
  rw [changeTree_run]
  exact ⟨rfl, rfl, (kept console.tree).mono fun _ never => never.elim⟩

/-- Looking where reports would be written changes nothing. -/
theorem reportsAt_unchanged (dir : Path) (output : OutputSettings) (formats : List ReportFormat) :
    Obeys Eq (reportsAt dir output formats) := by
  induction formats with
  | nil => exact obeys_pure _
  | cons format rest inductionHypothesis =>
    have path : Obeys Eq (reportPath dir output.outPrefix format) := by
      unfold reportPath
      split
      · exact obeys_pure _
      · exact obeys_throw _
    refine obeys_bind path fun path => obeys_get fun console => ?_
    split
    · rw [failFile_eq]
      exact obeys_bind (obeys_throw _) fun _ => obeys_bind inductionHypothesis fun _ => obeys_pure _
    · split
      · exact obeys_bind (obeys_throw _) fun _ => obeys_bind inductionHypothesis fun _ => obeys_pure _
      · exact obeys_bind inductionHypothesis fun _ => obeys_pure _

/-- Settling the first of some reports: what is found in its place is looked at before the others are. -/
theorem reportsAt_cons {output : OutputSettings} {front : String}
    (display : output.outPrefix.display? = some front) (dir : String) (format : ReportFormat)
    (rest : List ReportFormat) (console : Console) {reports : List (ReportFormat × Path)}
    {later : Console}
    (settled : (reportsAt (Path.ofString dir) output (format :: rest)).run.run console = (.ok reports, later)) :
    ∃ found others, console.tree.find? (reportFile dir front format) = .ok found ∧
      (output.overwrite.truthy = false → found = none) ∧
      (reportsAt (Path.ofString dir) output rest).run.run console = (.ok others, later) ∧
      reports = (format, reportFile dir front format) :: others := by
  have path : reportPath (Path.ofString dir) output.outPrefix format = pure (reportFile dir front format) := by
    rw [reportPath, display]
    rfl
  rw [reportsAt, path, pure_bind, run_get_bind] at settled
  cases looked : console.tree.find? (reportFile dir front format) with
  | error fault =>
    simp only [looked, failFile_eq] at settled
    obtain ⟨_, _, failed, -⟩ := run_bind_eq_ok.mp settled
    cases failed
  | ok found =>
    simp only [looked] at settled
    split at settled
    next inTheWay =>
      obtain ⟨_, _, failed, -⟩ := run_bind_eq_ok.mp settled
      cases failed
    next free =>
      obtain ⟨others, between, onward, last⟩ := run_bind_eq_ok.mp settled
      cases last
      refine ⟨found, others, rfl, fun kept => ?_, onward, rfl⟩
      simpa [kept] using free

/-- Settled reports lie in their files, each in its own. What is in the place of each was looked at: nothing, unless
it may be overwritten. -/
theorem reportsAt_eq_ok {output : OutputSettings} {front : String}
    (display : output.outPrefix.display? = some front) (dir : String) {formats : List ReportFormat}
    {console later : Console} {reports : List (ReportFormat × Path)}
    (settled : (reportsAt (Path.ofString dir) output formats).run.run console = (.ok reports, later)) :
    reports = reportsIn dir front formats ∧
      ∀ format ∈ formats, ∃ found, console.tree.find? (reportFile dir front format) = .ok found ∧
        (output.overwrite.truthy = false → found = none) := by
  induction formats generalizing reports with
  | nil =>
    rw [reportsAt, run_pure] at settled
    cases settled
    exact ⟨rfl, by simp⟩
  | cons format rest inductionHypothesis =>
    obtain ⟨found, others, looked, free, onward, rfl⟩ := reportsAt_cons display dir format rest console settled
    obtain ⟨rfl, lookedAt⟩ := inductionHypothesis onward
    exact ⟨rfl, List.forall_mem_cons.mpr ⟨⟨found, looked, free⟩, lookedAt⟩⟩

/-- Without a text to spell the names with, no report is settled. -/
theorem reportsAt_no_text {output : OutputSettings} (display : output.outPrefix.display? = none) (dir : Path)
    {formats : List ReportFormat} (some : formats ≠ []) (console : Console)
    {reports : List (ReportFormat × Path)} {later : Console} :
    (reportsAt dir output formats).run.run console ≠ (.ok reports, later) := by
  cases formats with
  | nil => exact absurd rfl some
  | cons format rest =>
    intro settled
    rw [reportsAt, reportPath, display, run_bind, run_throw] at settled
    cases settled

/-- Where the reports of a run are written, once that is settled: nowhere if none was asked for, else in a
directory that is made, each format once. What is in the place of each was looked at: nothing, unless it may be
overwritten. -/
inductive Settled (output : OutputSettings) (console : Console) :
    List (ReportFormat × Path) → Console → Prop where
  | nothing (none : output.formats = []) : Settled output console [] console
  | below (dir front : String) (tree : Tree) (some : output.formats ≠ []) (inDir : output.outDir = .text dir)
      (display : output.outPrefix.display? = .some front)
      (made : console.tree.makeDirs (Path.ofString dir) = (.ok (), tree))
      (lookedAt : ∀ format ∈ output.formats, ∃ found, tree.find? (reportFile dir front format) = .ok found ∧
        (output.overwrite.truthy = false → found = none)) :
      Settled output console (reportsIn dir front output.formats.eraseDups) { console with tree }

/-- Settling where reports are written does nothing but make their directory. -/
theorem settleReports_obeys {R : Console → Console → Prop} [lasting : Lasting R] (output : OutputSettings)
    (makes : ∀ dir, Obeys R (changeTree fun tree => tree.makeDirs dir)) : Obeys R (settleReports output) := by
  unfold settleReports
  split
  · exact obeys_pure _
  · split
    next spelling =>
      refine obeys_bind (makes _) fun _ => ?_
      exact (reportsAt_unchanged _ _ _).weaken fun same => same ▸ lasting.refl _
    next => exact obeys_throw _

/-- Settling where reports are written changes no file. -/
theorem settleReports_spares (output : OutputSettings) : Obeys Spares (settleReports output) :=
  settleReports_obeys output fun dir => changeTree_spares fun tree => tree.keeps_makeDirs dir

/-- Whenever places for the reports are settled, they are as described. -/
theorem settleReports_settled {output : OutputSettings} {console later : Console}
    {reports : List (ReportFormat × Path)}
    (settled : (settleReports output).run.run console = (.ok reports, later)) :
    Settled output console reports later := by
  unfold settleReports at settled
  split at settled
  next empty =>
    rw [run_pure] at settled
    cases settled
    exact .nothing (List.isEmpty_iff.mp empty)
  next filled =>
    have some : output.formats ≠ [] := fun none => filled (List.isEmpty_iff.mpr none)
    have someDistinct : output.formats.eraseDups ≠ [] := by
      cases listed : output.formats with
      | nil => exact absurd listed some
      | cons format rest => simp [List.eraseDups_cons]
    split at settled
    next dir inDir =>
      obtain ⟨_, between, changed, settled⟩ := run_bind_eq_ok.mp settled
      rw [changeTree_run] at changed
      rcases made : console.tree.makeDirs (Path.ofString dir) with ⟨_ | _, tree⟩
      · simp only [made] at changed
        cases changed
      · simp only [made] at changed
        cases changed
        cases display : output.outPrefix.display? with
        | none => exact absurd settled (reportsAt_no_text display _ someDistinct _)
        | some front =>
          have same : later = { console with tree } :=
            ((reportsAt_unchanged _ _ _ _).trans (congrArg Prod.snd settled)).symm
          obtain ⟨rfl, lookedAt⟩ := reportsAt_eq_ok display dir settled
          subst same
          refine .below dir front tree some inDir display made fun format member => ?_
          exact lookedAt format (List.mem_eraseDups.mpr member)
    next => cases settled

end ComLayout.Run
