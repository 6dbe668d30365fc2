import ComLayout.Text.Blank
import ComLayout.Vtable.Basic

/-!
# The printed vtable

The slots are printed in columns under their titles. Each column is as wide as its widest cell, two
spaces stand between columns, and white space at the end of a line is removed. An absent line or
identifier is a dash. The last line names the header. Integers are printed in decimal whatever their size.
-/

namespace ComLayout.Report.Listing

open Text

/-- A row of cells. -/
abbrev Row := List (List Char)

/-- The titles of the columns. -/
def titles : Row := ["index", "name", "line", "interface", "iid"].map String.toList

/-- The cell for an identifier; a dash where there is none or an empty one. -/
def iidCell : Option String → List Char
  | none => ['-']
  | some iid => if iid.isEmpty then ['-'] else iid.toList

/-- The cells for one slot. -/
def cells (m : Method) : Row :=
  [(toString m.index).toList, m.name.toList, ((m.line.map toString).getD "-").toList,
    m.interface.toList, iidCell m.iid]

/-- The greater of two widths, column by column. -/
def wider (widths others : List Nat) : List Nat := List.zipWith max widths others

/-- The widths of the columns. -/
def widths (rows : List Row) : List Nat :=
  rows.foldl (fun acc row => wider acc (row.map List.length)) (titles.map List.length)

/-- A cell filled up with spaces to a width. -/
def filled (cell : List Char) (width : Nat) : List Char :=
  cell ++ List.replicate (width - cell.length) ' '

/-- The line for a row. -/
def line (columns : List Nat) (row : Row) : List Char :=
  trimEnd (List.intercalate [' ', ' '] (List.zipWith filled row columns))

/-- The lines of the table. -/
def tableLines (methods : List Method) : List (List Char) :=
  let rows := methods.map cells
  (titles :: rows).map (line (widths rows))

/-- The lines that are printed for a vtable from a header. -/
def lines (vtable : Vtable) (header : String) : List (List Char) :=
  tableLines vtable.methods ++ ["source: ".toList ++ header.toList]

/-- The text that is printed for a vtable from a header. -/
def render (vtable : Vtable) (header : String) : List Char :=
  (lines vtable header).flatMap (· ++ ['\n'])

end ComLayout.Report.Listing
