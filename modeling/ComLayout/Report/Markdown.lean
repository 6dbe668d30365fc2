import ComLayout.Files.Relative
import ComLayout.Text.Blank
import ComLayout.Vtable.Summary

/-!
# The Markdown report

A heading, a link to the header, the slots as a table and the summary. Each slot that has a line links
to that line of the header. Links are relative to the directory of the report. White space at the end
of the report is removed, and a line end put there. Integers are written in decimal whatever their size.
-/

namespace ComLayout.Report.Markdown

open Text

/-- A link with a label. -/
def link (label target : String) : String := "[" ++ label ++ "](" ++ target ++ ")"

/-- Where a report lies and what it is about: the working directory, the path of the report, and the
path of the header if it is known. -/
structure Setting where
  working : List String
  report : Path
  source : Option Path

/-- The way from the report's directory to a header. -/
def Setting.target (setting : Setting) (source : Path) : String :=
  (Path.mk .none
    (wayTo (setting.report.parent.resolve setting.working) (source.resolve setting.working))).toString

/-- The part of a link that names a line; the line zero has none. -/
def fragment (line : Int) : String := if line = 0 then "" else "#L" ++ toString line

/-- The cell for a line: a link if both the line and the header are known, else a dash. -/
def lineCell (setting : Setting) (line : Option Int) : String :=
  match line, setting.source with
  | some n, some source => link (toString n) (setting.target source ++ fragment n)
  | _, _ => "-"

/-- The cell for an identifier; a dash where there is none or an empty one. -/
def iidCell : Option String → String
  | none => "-"
  | some iid => if iid.isEmpty then "-" else iid

/-- The row for one slot. -/
def methodRow (setting : Setting) (m : Method) : String :=
  "| " ++ toString m.index ++ " | `" ++ m.name ++ "` | " ++ lineCell setting m.line ++ " | " ++
    m.interface ++ " | " ++ iidCell m.iid ++ " |"

/-- The table of the slots. -/
def methodTable (setting : Setting) (methods : List Method) : List String :=
  ["## VTable", "", "| Index | Method | Line | Interface | IID |", "|---:|---|---:|---|---|"] ++
    methods.map (methodRow setting)

/-- The lines for a summary. -/
def summaryLines (s : Summary) : List String :=
  ["## Summary", "", "- Total Methods: **" ++ toString s.total ++ "**", "- Own: " ++ toString s.own,
    "- Inherited: " ++ toString s.inherited, "", "| Interface | Methods |", "|---|---:|"] ++
    s.byInterface.map fun entry => "| " ++ entry.1 ++ " | " ++ toString entry.2 ++ " |"

/-- The line that links to the header. -/
def sourceLines (setting : Setting) : List String :=
  match setting.source with
  | some source => ["- Source: " ++ link source.name (setting.target source), ""]
  | none => []

/-- All lines of the report. -/
def lines (setting : Setting) (vtable : Vtable) : List String :=
  ["# " ++ vtable.interface ++ " VTable", ""] ++ sourceLines setting ++
    methodTable setting vtable.methods ++ [""] ++ summaryLines (Summary.ofVtable vtable)

/-- The path of the header of a vtable; an empty one counts as none. -/
def sourceOf (vtable : Vtable) : Option Path :=
  vtable.source.bind fun s => if s.isEmpty then none else some (Path.ofString s)

/-- The text of the Markdown report. -/
def render (working : List String) (report : Path) (vtable : Vtable) : List Char :=
  let all := lines ⟨working, report, sourceOf vtable⟩ vtable
  trimEnd (String.intercalate "\n" all).toList ++ ['\n']

end ComLayout.Report.Markdown
