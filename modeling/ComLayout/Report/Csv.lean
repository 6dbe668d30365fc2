import ComLayout.Vtable.Basic

/-!
# The CSV report

Rows of fields between commas, each row ended by carriage return and line feed. A field that holds a
comma, a quote or a line break stands between quotes, with its quotes doubled; every other field is
written as it is. An absent line or identifier is an empty field. Integers are written in decimal whatever their
size; those of a vtable that was found count its slots and the lines of a header.
-/

namespace ComLayout.Report.Csv

/-- A character that cannot stand in a field without quotes around it. -/
def isSpecial (c : Char) : Bool := c == ',' || c == '"' || c == '\r' || c == '\n'

/-- Write every quote twice. -/
def doubled : List Char → List Char
  | [] => []
  | c :: rest => if c == '"' then '"' :: '"' :: doubled rest else c :: doubled rest

/-- The written form of a field. -/
def field (s : List Char) : List Char :=
  if s.any isSpecial then '"' :: doubled s ++ ['"'] else s

/-- The written form of a row. -/
def row (cells : List (List Char)) : List Char :=
  List.intercalate [','] (cells.map field) ++ ['\r', '\n']

/-- The titles of the columns. -/
def titles : List String := ["Index", "Method", "Line", "Interface", "IID"]

/-- The cells for one slot. -/
def cells (m : Method) : List (List Char) :=
  [(toString m.index).toList, m.name.toList, ((m.line.map toString).getD "").toList,
    m.interface.toList, (m.iid.getD "").toList]

/-- All rows: the titles, then one row for each slot in order. -/
def table (vtable : Vtable) : List (List (List Char)) :=
  titles.map String.toList :: vtable.methods.map cells

/-- The text of the CSV report. -/
def render (vtable : Vtable) : List Char := (table vtable).flatMap row

end ComLayout.Report.Csv
