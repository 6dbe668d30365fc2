import ComLayout.Proofs.Lookup.SlotTexts
import ComLayout.Proofs.Report.JsonReading
import ComLayout.Proofs.Report.SourceLinks
import ComLayout.Proofs.Report.TableReading

/-!
# The rows of the table of slots

What a header gives to a slot cannot break a row of the table: words and GUIDs hold none of the characters that a
table is made of. A link is made of the names of directories, though, which may hold any of them and are written
as they are. So the table has one row of five cells for each slot exactly if no slot is linked, or if the way to the
header may stand in a cell.
-/

namespace ComLayout.Report.Markdown

open Header Lookup Text

/-- A line holds cells: bars stand between them and at both ends, and a space on each side of a cell. -/
def HoldsCells (line : List Char) (cells : List (List Char)) : Prop :=
  cutBars false line = [] :: cells.map (fun cell => ' ' :: cell ++ [' ']) ++ [[]]

/-- The heading of the table of slots. -/
def tableHead : List String :=
  ["## VTable", "", "| Index | Method | Line | Interface | IID |", "|---:|---|---:|---|---|"]

/-- A text is a table: its heading, and then a line for each row that holds the cells of the row. -/
def IsTable (text : List Char) (rows : List (List (List Char))) : Prop :=
  ∃ lines, readLines text = tableHead.map String.toList ++ lines ++ [[]] ∧ List.Forall₂ HoldsCells lines rows

/-- The cells for one slot: its index, its name, the link to its line, its interface and the identifier of that. -/
def cells (setting : Setting) (m : Method) : List (List Char) :=
  [(toString m.index).toList, ("`" ++ m.name ++ "`").toList, (lineCell setting m.line).toList, m.interface.toList,
    (iidCell m.iid).toList]

section Rows

/-- The text of a row. -/
def rowText (cells : List (List Char)) : List Char := '|' :: cells.flatMap fun cell => ' ' :: cell ++ [' ', '|']

/-- The row for a slot is the row of its cells. -/
theorem toList_methodRow (setting : Setting) (m : Method) :
    (methodRow setting m).toList = rowText (cells setting m) := by
  simp [methodRow, rowText, cells]

/-- A row is cut where its cells end, and where they are cut themselves. -/
theorem cutBars_rowText (cells : List (List Char)) : cutBars false (rowText cells) =
    [] :: cells.flatMap (fun cell => cutBars false (' ' :: cell ++ [' '])) ++ [[]] := by
  have behind : cutBars false (cells.flatMap fun cell => ' ' :: cell ++ [' ', '|']) =
      cells.flatMap (fun cell => cutBars false (' ' :: cell ++ [' '])) ++ [[]] := by
    induction cells with
    | nil => rfl
    | cons cell cells inductionHypothesis =>
      have spaced : (' ' :: cell ++ [' ', '|']) ++ (cells.flatMap fun cell => ' ' :: cell ++ [' ', '|']) =
          (' ' :: cell) ++ ' ' :: '|' :: cells.flatMap fun cell => ' ' :: cell ++ [' ', '|'] := by simp
      rw [List.flatMap_cons, spaced, cutBars_cell, inductionHypothesis, List.flatMap_cons, List.append_assoc]
  have opened (cs : List Char) : cutBars false ('|' :: cs) = [] :: cutBars false cs := rfl
  rw [rowText, opened, behind, List.cons_append]

/-- The text of a row is one line that holds its cells exactly if none of them is broken. -/
theorem holdsCells_rowText (cells : List (List Char)) :
    (readLines (rowText cells)).length = 1 ∧ HoldsCells (rowText cells) cells ↔ ∀ cell ∈ cells, Unbroken cell := by
  have space : TablePlain [' '] := by decide
  have spaced (cell : List Char) : Unbroken (' ' :: cell ++ [' ']) ↔ Unbroken cell := unbroken_enclosed space space cell
  have held {c : Char} (other : c ≠ '|' ∧ c ≠ ' ') : c ∉ rowText cells ↔ ∀ cell ∈ cells, c ∉ cell := by
    simp [rowText, other]
  rw [length_readLines, held (by decide), held (by decide), HoldsCells, cutBars_rowText]
  constructor
  · rintro ⟨⟨feeds, returns⟩, cut⟩ cell member
    have pieces : (cells.flatMap fun cell => cutBars false (' ' :: cell ++ [' '])).length = cells.length := by
      have lengths := congrArg List.length cut
      simpa using lengths
    have whole := length_eq_one_of_flatMap (fun cell => cutBars_ne_nil (' ' :: cell ++ [' '])) pieces cell member
    exact (spaced cell).mp ⟨by simpa using feeds cell member, by simpa using returns cell member,
      cutBars_of_length whole⟩
  · intro unbroken
    refine ⟨⟨fun cell member => (unbroken cell member).feeds, fun cell member => (unbroken cell member).returns⟩, ?_⟩
    have each : cells.flatMap (fun cell => cutBars false (' ' :: cell ++ [' '])) =
        cells.flatMap fun cell => [' ' :: cell ++ [' ']] :=
      List.flatMap_congr fun cell member => ((spaced cell).mpr (unbroken cell member)).bars
    rw [each, ← List.map_eq_flatMap]

end Rows

section Tables

/-- The lines of some lines with their ends are the lines of each. -/
theorem readLines_textOfLines {lines : List String} (ends : ∀ line ∈ lines, line.toList.getLast? ≠ some '\r') :
    readLines (textOfLines lines) = lines.flatMap (fun line => readLines line.toList) ++ [[]] := by
  induction lines with
  | nil => rfl
  | cons line lines inductionHypothesis =>
    obtain ⟨here, behind⟩ := List.forall_mem_cons.mp ends
    have cut : textOfLines (line :: lines) = line.toList ++ '\n' :: textOfLines lines := by simp [textOfLines]
    rw [cut, readLines_line here, inductionHypothesis behind, List.flatMap_cons, List.append_assoc]

/-- The table of some slots is read as its heading and the lines of each row. -/
theorem readLines_methodTable (setting : Setting) (methods : List Method) :
    readLines (textOfLines (methodTable setting methods)) =
      tableHead.map String.toList ++ methods.flatMap (fun m => readLines (rowText (cells setting m))) ++ [[]] := by
  have ends : ∀ line ∈ methodTable setting methods, line.toList.getLast? ≠ some '\r' := by
    have closing : " |".toList.getLast? = some '|' := by decide
    rw [methodTable, List.forall_mem_append, List.forall_mem_map]
    refine ⟨by decide, fun m _ => ?_⟩
    rw [methodRow, String.toList_append, List.getLast?_append, closing]
    simp
  have head : tableHead.flatMap (fun line => readLines line.toList) = tableHead.map String.toList := by
    decide +kernel
  have split : methodTable setting methods = tableHead ++ methods.map (methodRow setting) := rfl
  rw [readLines_textOfLines ends, split, List.flatMap_append, head, List.flatMap_map]
  simp only [toList_methodRow]

/-- The table of some slots has a row for each exactly if no cell of theirs is broken. A row that is broken by a
line end is more than one line, so there would be more lines than slots. -/
theorem isTable_iff (setting : Setting) (methods : List Method) :
    IsTable (textOfLines (methodTable setting methods)) (methods.map (cells setting)) ↔
      ∀ m ∈ methods, ∀ cell ∈ cells setting m, Unbroken cell := by
  have rows (single : ∀ m ∈ methods, (readLines (rowText (cells setting m))).length = 1) :
      methods.flatMap (fun m => readLines (rowText (cells setting m))) =
        methods.map fun m => rowText (cells setting m) := by
    rw [List.map_eq_flatMap]
    exact List.flatMap_congr fun m member => readLines_of_length (single m member)
  have held : List.Forall₂ HoldsCells (methods.map fun m => rowText (cells setting m)) (methods.map (cells setting)) ↔
      ∀ m ∈ methods, HoldsCells (rowText (cells setting m)) (cells setting m) := by
    rw [List.forall₂_map_left_iff, List.forall₂_map_right_iff, List.forall₂_same]
  simp only [IsTable, readLines_methodTable, List.append_cancel_right_eq, List.append_cancel_left_eq, exists_eq_left',
    ← holdsCells_rowText]
  constructor
  · intro table m member
    have count := table.length_eq
    rw [List.length_map] at count
    have single := length_eq_one_of_flatMap (fun m => readLines_ne_nil (rowText (cells setting m))) count
    rw [rows single, held] at table
    exact ⟨single m member, table m member⟩
  · intro whole
    rw [rows fun m member => (whole m member).1, held]
    exact fun m member => (whole m member).2

end Tables

section Slots

/-- No mark of a table comes into a name by its case. -/
theorem tablePlain_of_sameWord {as bs : List Char} (same : sameWord as bs = true) (plain : TablePlain as) :
    TablePlain bs := by
  have marks : ∀ c ∈ tableMarks, c.toNat < 128 ∧ c.isAlpha = false := by decide
  intro c mark held
  exact plain c mark (mem_of_sameWord same (marks c mark).1 (marks c mark).2 held)

/-- Words are plain. -/
theorem tablePlain_of_wordRun {cs : List Char} (word : WordRun cs) : TablePlain cs := by
  have marks : ∀ c ∈ tableMarks, isWord c = false := by decide
  exact fun c mark => not_mem_of_wordRun word (marks c mark)

/-- Integers are plain. -/
theorem tablePlain_toString (n : Int) : TablePlain (toString n).toList := by
  have marks : ∀ c ∈ tableMarks, c ≠ '-' ∧ c.isDigit = false := by decide
  intro c mark held
  obtain ⟨sign, digit⟩ := marks c mark
  rcases Number.mem_toString_int held with minus | number
  · exact sign minus
  · rw [digit] at number
    exact Bool.noConfusion number

/-- GUIDs in braces are plain. -/
theorem tablePlain_formatIid (guid : Guid) : TablePlain (formatIid (String.ofList guid.text)).toList := by
  have marks : ∀ c ∈ tableMarks, c ≠ '-' ∧ isHexDigit c = false := by decide
  have inside : TablePlain guid.text := by
    intro c mark held
    obtain ⟨joint, digit⟩ := marks c mark
    rcases guid.mem_text c held with hyphen | number
    · exact joint hyphen
    · rw [digit] at number
      exact Bool.noConfusion number
  have braced : (formatIid (String.ofList guid.text)).toList = ['\x7b'] ++ guid.text ++ ['\x7d'] := by
    simp [formatIid]
  rw [braced]
  exact tablePlain_append (tablePlain_append (by decide) inside) (by decide)

/-- The cell for a line is broken only by the way to the header. -/
theorem unbroken_lineCell (setting : Setting) (line : Option Int) : Unbroken (lineCell setting line).toList ↔
    (line ≠ none → ∀ source, setting.source = some source → Unbroken (setting.target source).toList) := by
  have dash : Unbroken "-".toList := unbroken_of_tablePlain (by decide)
  cases line with
  | none => simpa [lineCell] using dash
  | some n =>
    cases known : setting.source with
    | none => simpa [lineCell, known] using dash
    | some source =>
      have numbered := tablePlain_toString n
      have front : TablePlain ("[".toList ++ (toString n).toList ++ "](".toList) :=
        tablePlain_append (tablePlain_append (by decide) numbered) (by decide)
      have back : TablePlain ((fragment n).toList ++ ")".toList) := by
        refine tablePlain_append ?_ (by decide)
        rw [fragment]
        split
        · decide
        · rw [String.toList_append]
          exact tablePlain_append (by decide) numbered
      have cell : (lineCell setting (some n)).toList = ("[".toList ++ (toString n).toList ++ "](".toList) ++
          (setting.target source).toList ++ ((fragment n).toList ++ ")".toList) := by
        simp only [lineCell, known, link, String.toList_append, List.append_assoc]
      rw [cell, unbroken_enclosed front back]
      simp

/-- A slot that holds what slots may hold has a cell that is broken only if its line is linked and the way to the
header is broken. -/
theorem unbroken_cells {name : String} (plain : TablePlain name.toList) (setting : Setting) {m : Method}
    (spells : m.slot.Spells name) : (∀ cell ∈ cells setting m, Unbroken cell) ↔
      (m.line ≠ none → ∀ source, setting.source = some source → Unbroken (setting.target source).toList) := by
  have index : Unbroken (toString m.index).toList := unbroken_of_tablePlain (tablePlain_toString m.index)
  have method : Unbroken ("`" ++ m.name ++ "`").toList := by
    rw [String.toList_append, String.toList_append]
    have word : TablePlain m.name.toList := tablePlain_of_wordRun spells.name
    exact unbroken_of_tablePlain (tablePlain_append (tablePlain_append (by decide) word) (by decide))
  have interface : Unbroken m.interface.toList := by
    obtain ⟨word, named, same⟩ := spells.interface
    refine unbroken_of_tablePlain (tablePlain_of_sameWord same ?_)
    exact named.elim (fun given => given ▸ plain) tablePlain_of_wordRun
  have iid : Unbroken (iidCell m.iid).toList := by
    refine unbroken_of_tablePlain ?_
    cases known : m.iid with
    | none => decide
    | some iid =>
      obtain ⟨guid, rfl⟩ := spells.iid iid known
      rw [iidCell]
      split
      · decide
      · exact tablePlain_formatIid guid
  rw [← unbroken_lineCell]
  simp only [cells, List.forall_mem_cons, index, method, interface, iid, true_and, and_true, List.not_mem_nil,
    false_implies, implies_true]

end Slots

section Reports

/-- The report on a vtable that a lookup finds holds the table of its slots between the title with the link to the
header and the summary.

It is a table with one row of five cells for each slot exactly if no slot is linked, or if the way from the report to
the header may stand in a cell: nothing else can break a row, for a requested name that holds no mark of a table, such
as an identifier.

The text of a row is read cell by cell, up to each bar that is not escaped. Cells that hold neither a bar nor a line
end are read back as they are written, and others never are. Of the five cells, numbers, words and identifiers are
plain, and so is the name of an interface, which is the requested one up to letter case or a word of the header; the
link is as plain as the way in it. -/
theorem found_table {tree : Tree} {name pattern : String} {recurse : Bool} {filter : Filter} {vtable : Vtable}
    (plain : TablePlain name.toList) (found : (find tree name pattern recurse filter).1 = .ok vtable)
    (working : Location) (report : Path) :
    let setting : Setting := ⟨working, report, sourceOf vtable⟩
    render working report vtable =
        textOfLines (["# " ++ vtable.interface ++ " VTable", ""] ++ sourceLines setting) ++
          textOfLines (methodTable setting vtable.methods) ++
          textOfLines ("" :: summaryLines (Summary.ofVtable vtable)) ∧
      (IsTable (textOfLines (methodTable setting vtable.methods)) (vtable.methods.map (cells setting)) ↔
        ∀ m ∈ vtable.methods, m.line ≠ none →
          ∀ source, sourceOf vtable = some source → Unbroken (setting.target source).toList) := by
  intro setting
  constructor
  · rw [render_eq, lines]
    simp [textOfLines, setting]
  · rw [isTable_iff]
    have spelled := found_spells found
    exact forall₂_congr fun m member => unbroken_cells plain setting (spelled m member)

/-- The table of the slots of an interface that derives from another, in a report beside their header. -/
theorem derived_table : IsTable
    (textOfLines (methodTable ⟨[], Path.ofString "vtable.md", sourceOf derivedVtable⟩ derivedVtable.methods))
    (derivedVtable.methods.map (cells ⟨[], Path.ofString "vtable.md", sourceOf derivedVtable⟩)) := by
  have found : (find derivedTree "iderived" "d2d1.h" false Filter.none).1 = .ok derivedVtable := by decide +kernel
  have plain : TablePlain "iderived".toList := by decide
  have header : sourceOf derivedVtable = some (Path.ofString "d2d1.h") := by decide +kernel
  refine (found_table plain found [] (Path.ofString "vtable.md")).2.mpr fun m _ _ source known => ?_
  rw [header] at known ⊢
  obtain rfl := Option.some.inj known
  exact unbroken_of_tablePlain (by decide +kernel)

/-- A tree in which the same header lies in a directory with a bar in its name. -/
def barredTree : Tree := ⟨[["a|b"]], [(["a|b", "d2d1.h"], derivedHeader.toUTF8)], by simp [isEntryName]⟩

/-- The vtable that is found there. -/
def barredVtable : Vtable := { derivedVtable with source := some "a|b/d2d1.h" }

/-- A report on that vtable in a directory beside that of the header. -/
def besideBarred : Setting := ⟨[], Path.ofString "reports/vtable.md", sourceOf barredVtable⟩

/-- A slot of that vtable. -/
def barredSlot : Method := ⟨3, "Open", some 8, "IBase", some "\x7b00000000-0000-0000-0000-00000000000a\x7d"⟩

/-- The row for a linked slot of that vtable is cut into six cells: the report has no table of the slots. -/
theorem barred_table_broken :
    (find barredTree "IDerived" "a|b/d2d1.h" false Filter.none).1 = .ok barredVtable ∧
      barredSlot ∈ barredVtable.methods ∧
      cutBars false (methodRow besideBarred barredSlot).toList =
        ["", " 3 ", " `Open` ", " [8](../a", "b/d2d1.h#L8) ", " IBase ",
          " \x7b00000000-0000-0000-0000-00000000000a\x7d ", ""].map String.toList ∧
      ¬ IsTable (textOfLines (methodTable besideBarred barredVtable.methods))
        (barredVtable.methods.map (cells besideBarred)) := by
  have listed : barredSlot ∈ barredVtable.methods := by decide +kernel
  refine ⟨by decide +kernel, listed, by decide +kernel, fun table => ?_⟩
  have linked := (isTable_iff besideBarred barredVtable.methods).mp table barredSlot listed
    "[8](../a|b/d2d1.h#L8)".toList (by decide +kernel)
  exact absurd linked.bars (by decide +kernel)

end Reports

end ComLayout.Report.Markdown
