import ComLayout.Proofs.Files.Following
import ComLayout.Report.Markdown

/-!
# Links from a report to its header

The way from one directory to another place goes up to the last directory that they share and down from
there, so walking it from the first leads to the other, wherever the two lie. A link of a report spells such a
way. Each slot with a line has its row in the report, and a link to that line in it.
-/

namespace ComLayout

section Ways

/-- Walking the way from a directory to a place leads there. What the directory and the place share is not
left, and the way down from it holds no step back. -/
theorem walk_wayTo (shared start target : List String) (down : ".." ∉ target) :
    walk (shared ++ start) (wayTo start target) = shared ++ target := by
  fun_induction wayTo start target generalizing shared with
  | case1 start name target inductionHypothesis =>
    have onward := inductionHypothesis (shared ++ [name]) fun held => down (List.mem_cons_of_mem name held)
    simpa using onward
  | case2 name start other target different =>
    rw [walk_append, ← List.length_cons (a := name), walk_back, walk_down _ _ down]
  | case3 start target apart =>
    rw [walk_append, walk_back, walk_down _ _ down]

/-- A way is made of steps back and of names of the place that it leads to. -/
theorem mem_wayTo {start target : List String} {name : String} (held : name ∈ wayTo start target) :
    name = ".." ∨ name ∈ target := by
  fun_induction wayTo start target with
  | case1 start shared target inductionHypothesis =>
    exact (inductionHypothesis held).imp_right (List.mem_cons_of_mem shared)
  | case2 first start other target different =>
    exact (List.mem_append.mp held).imp_left List.eq_of_mem_replicate
  | case3 start target apart =>
    exact (List.mem_append.mp held).imp_left List.eq_of_mem_replicate

/-- Walking along components from a place among entries leads to such a place. -/
theorem isEntryName_walk {place names : List String} (entries : ∀ name ∈ place, isEntryName name = true)
    (components : ∀ name ∈ names, Component name) : ∀ name ∈ walk place names, isEntryName name = true := by
  induction names generalizing place with
  | nil => exact entries
  | cons first rest inductionHypothesis =>
    rw [walk]
    refine inductionHypothesis ?_ fun name member => components name (List.mem_cons_of_mem first member)
    intro name member
    split at member
    case isTrue back => exact entries name (List.dropLast_subset place member)
    case isFalse down =>
      rcases List.mem_append.mp member with before | here
      · exact entries name before
      · obtain rfl := List.mem_singleton.mp here
        exact Tree.isEntryName_of_component (components name List.mem_cons_self) down

variable {working : Location}

/-- A readable path is resolved to a place among entries. -/
theorem Path.isEntryName_resolve (entries : ∀ name ∈ working, isEntryName name = true) {p : Path}
    (readable : p.Readable) : ∀ name ∈ p.resolve working, isEntryName name = true := by
  refine isEntryName_walk ?_ readable
  intro name member
  split at member
  case isTrue => exact entries name member
  case isFalse => exact absurd member List.not_mem_nil

/-- The directory of a path that ends in a name is the directory of the place that it is resolved to. -/
theorem Path.resolve_parent {p : Path} (named : p.names ≠ []) (down : p.name ≠ "..") :
    p.parent.resolve working = (p.resolve working).dropLast := by
  have walked : p.resolve working = p.parent.resolve working ++ [p.name] := by
    rw [Path.resolve, names_eq_append named, walk_append, walk, if_neg down]
    rfl
  rw [walked, List.dropLast_concat]

end Ways

namespace Report.Markdown

open Text

section Lines

/-- The text of some lines, each with its line end. -/
def textOfLines (lines : List String) : List Char := lines.flatMap fun line => line.toList ++ ['\n']

/-- Lines that are joined by line feeds are ended by them, but for the last. -/
theorem toList_joined (before : List String) (last : String) :
    (String.intercalate "\n" (before ++ [last])).toList = textOfLines before ++ last.toList := by
  rw [String.toList_intercalate]
  induction before with
  | nil => simp [textOfLines]
  | cons first rest inductionHypothesis =>
    obtain ⟨second, more, split⟩ :=
      List.exists_cons_of_ne_nil (List.append_ne_nil_of_right_ne_nil rest (List.cons_ne_nil last []))
    rw [split] at inductionHypothesis
    rw [List.cons_append, split, List.map_cons, List.map_cons, List.intercalate_cons_cons, ← List.map_cons,
      inductionHypothesis]
    simp [textOfLines]

/-- A text that does not end in white space loses nothing at its end. -/
theorem trimEnd_concat (front : List Char) {c : Char} (other : isBlank c = false) :
    trimEnd (front ++ [c]) = front ++ [c] := by
  simp [trimEnd, dropTail, other]

/-- The last line of a report closes a row of a table. -/
theorem exists_last_line (setting : Setting) (vtable : Vtable) :
    ∃ before last, lines setting vtable = before ++ [last ++ "|"] := by
  have ends : ∃ last, (summaryLines (Summary.ofVtable vtable)).getLast? = some (last ++ "|") := by
    rw [summaryLines]
    generalize (Summary.ofVtable vtable).byInterface = counts
    rcases List.eq_nil_or_concat counts with rfl | ⟨front, entry, rfl⟩
    · exact ⟨"|---|---:", rfl⟩
    · refine ⟨"| " ++ entry.1 ++ " | " ++ toString entry.2 ++ " ", ?_⟩
      have closing : " |" = " " ++ "|" := rfl
      rw [List.concat_eq_append, List.map_append, ← List.append_assoc, List.map_singleton, List.getLast?_concat,
        closing, ← String.append_assoc]
  obtain ⟨last, ends⟩ := ends
  obtain ⟨before, split⟩ := List.getLast?_eq_some_iff.mp ends
  exact ⟨_, last, by rw [lines, split, ← List.append_assoc]⟩

/-- A report is the text of its lines. -/
theorem render_eq (working : Location) (report : Path) (vtable : Vtable) :
    render working report vtable = textOfLines (lines ⟨working, report, sourceOf vtable⟩ vtable) := by
  obtain ⟨before, last, split⟩ := exists_last_line ⟨working, report, sourceOf vtable⟩ vtable
  have ended : textOfLines before ++ (last ++ "|").toList = textOfLines before ++ last.toList ++ ['|'] := by simp
  rw [render, split, toList_joined, ended, trimEnd_concat _ (by decide)]
  simp [textOfLines]

end Lines

section Links

variable {working : Location}

/-- The part of a link before the line spells the way from the directory of the report to the header. -/
theorem resolve_target (entries : ∀ name ∈ working, isEntryName name = true) {report source : Path}
    (readableSource : source.Readable) (header : Option Path) :
    (Path.ofString ((Setting.mk working report header).target source)).resolve (report.parent.resolve working) =
      source.resolve working := by
  have atSource := Path.isEntryName_resolve entries readableSource
  have down : ".." ∉ source.resolve working := fun held => absurd (atSource ".." held) (by decide)
  have readable : (Path.mk .none (wayTo (report.parent.resolve working) (source.resolve working))).Readable := by
    intro name held
    rcases mem_wayTo held with rfl | member
    · exact ⟨by decide, by decide⟩
    · exact component_of_isEntryName (atSource name member)
  rw [Setting.target, Path.ofString_toString _ readable, Path.resolve, if_pos rfl]
  exact walk_wayTo [] _ _ down

/-- A line of the header is named behind the link to it, and the lines of a header count from one. -/
theorem fragment_of_pos {line : Int} (counted : 1 ≤ line) : fragment line = "#L" ++ toString line := by
  have counts : line ≠ 0 := by omega
  rw [fragment, if_neg counts]

/-- The row of a slot with a line links to that line, if the header is known. -/
theorem methodRow_of_line {setting : Setting} {source : Path} (known : setting.source = some source) {m : Method}
    {line : Int} (numbered : m.line = some line) (counted : 1 ≤ line) :
    methodRow setting m = "| " ++ toString m.index ++ " | `" ++ m.name ++ "` | " ++
      link (toString line) (setting.target source ++ "#L" ++ toString line) ++ " | " ++ m.interface ++ " | " ++
      iidCell m.iid ++ " |" := by
  have cell : lineCell setting m.line = link (toString line) (setting.target source ++ "#L" ++ toString line) := by
    simp only [lineCell, numbered, known, fragment_of_pos counted, String.append_assoc]
  rw [methodRow, cell]

/-- A link to a line of the header leads back to the header.

What stands before the line in it, followed component by component from the directory of the report, arrives at the
header. Each slot has its row in the report, in order, and with a line it has this link. An empty text is no path of a
header.

Both paths are taken from the working directory first. The way between two places goes up to the last directory that
they share and down from there, so following it from the one arrives at the other, wherever they lie. All this is
about spellings alone and asks nothing of a tree. -/
theorem links_lead_to_source (entries : ∀ name ∈ working, isEntryName name = true) (report source : String) :
    ∃ way : String,
      (∀ header line, 1 ≤ line →
        (Setting.mk working (Path.ofString report) header).target (Path.ofString source) ++ fragment line =
          way ++ "#L" ++ toString line) ∧
      (Path.ofString way).resolve ((Path.ofString report).parent.resolve working) =
        (Path.ofString source).resolve working ∧
      ((Path.ofString report).names ≠ [] → (Path.ofString report).name ≠ ".." →
        (Path.ofString report).parent.resolve working = ((Path.ofString report).resolve working).dropLast) ∧
      ∀ vtable : Vtable, vtable.source = some source → source ≠ "" →
        ∃ before after : List String, ∃ row : Method → String,
          render working (Path.ofString report) vtable =
            textOfLines (before ++ vtable.methods.map row ++ after) ∧
          ∀ m line, m.line = some line → 1 ≤ line →
            row m = "| " ++ toString m.index ++ " | `" ++ m.name ++ "` | [" ++ toString line ++ "](" ++ way ++
              "#L" ++ toString line ++ ") | " ++ m.interface ++ " | " ++ iidCell m.iid ++ " |" := by
  have readable := Path.readable_ofString source
  refine ⟨(Setting.mk working (Path.ofString report) none).target (Path.ofString source), ?_, ?_, ?_, ?_⟩
  · intro header line counted
    rw [fragment_of_pos counted, String.append_assoc]
    rfl
  · exact resolve_target entries readable none
  · exact Path.resolve_parent
  · intro vtable found filled
    have header : sourceOf vtable = some (Path.ofString source) := by simp [sourceOf, found, filled]
    have cut := render_eq working (Path.ofString report) vtable
    rw [header, lines, methodTable, ← List.append_assoc] at cut
    refine ⟨_, _, methodRow ⟨working, Path.ofString report, some (Path.ofString source)⟩,
      cut.trans (congrArg textOfLines (List.append_assoc _ _ _)), ?_⟩
    intro m line numbered counted
    rw [methodRow_of_line rfl numbered counted, link]
    simp only [String.append_assoc]
    rfl

/-- A report in a directory beside the one that the header is named from. -/
theorem links_from_sibling : ∃ way : String,
    (Setting.mk ["home", "desk"] (Path.ofString "../reports/./vtable.md") none).target
        (Path.ofString "sdk/../inc/d2d1.h") ++ fragment 13 = way ++ "#L13" ∧
      (Path.ofString way).resolve ((Path.ofString "../reports/./vtable.md").resolve ["home", "desk"]).dropLast =
        ["home", "desk", "inc", "d2d1.h"] ∧
      ∃ before after : List String,
        render ["home", "desk"] (Path.ofString "../reports/./vtable.md")
            ⟨"IPen", [⟨3, "Draw", some 13, "IPen", none⟩], some "sdk/../inc/d2d1.h"⟩ =
          textOfLines (before ++ ["| 3 | `Draw` | [13](" ++ way ++ "#L13) | IPen | - |"] ++ after) := by
  have entries : ∀ name ∈ ["home", "desk"], isEntryName name = true := by decide
  obtain ⟨way, links, leads, beside, shown⟩ :=
    links_lead_to_source entries "../reports/./vtable.md" "sdk/../inc/d2d1.h"
  obtain ⟨before, after, row, text, rows⟩ :=
    shown ⟨"IPen", [⟨3, "Draw", some 13, "IPen", none⟩], some "sdk/../inc/d2d1.h"⟩ rfl (by decide)
  have header : (Path.ofString "sdk/../inc/d2d1.h").resolve ["home", "desk"] = ["home", "desk", "inc", "d2d1.h"] := by
    decide +kernel
  have line : "#L" ++ toString (13 : Int) = "#L13" := by decide
  have front : "| " ++ toString (3 : Int) ++ " | `" ++ "Draw" ++ "` | [" ++ toString (13 : Int) ++ "](" =
      "| 3 | `Draw` | [13](" := by decide +kernel
  have back : "#L" ++ toString (13 : Int) ++ ") | " ++ "IPen" ++ " | " ++ iidCell none ++ " |" =
      "#L13) | IPen | - |" := by decide +kernel
  refine ⟨way, ?_, ?_, before, after, ?_⟩
  · rw [links none 13 (by decide), String.append_assoc, line]
  · rw [← beside (by decide +kernel) (by decide +kernel), leads, header]
  · rw [text, List.map_singleton, rows _ 13 rfl (by decide), front, ← back]
    simp only [String.append_assoc]

end Links

end Report.Markdown

end ComLayout
