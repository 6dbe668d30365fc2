import ComLayout.Report.Csv

/-!
# Reading a CSV report back

A reader of comma-separated values goes through a text character by character. Commas end fields, and a
carriage return, a line feed or both end rows, unless they stand between quotes, where a quote is written
twice. A row that is written is read back whatever its cells hold, and so is the whole table of a report.
-/

namespace ComLayout.Report.Csv

/-- Where in a field a reader stands. -/
inductive Mode where
  /-- Before its first character. -/
  | fresh
  /-- Behind characters without quotes around them. -/
  | plain
  /-- Between quotes. -/
  | quoted
  /-- Behind a quote that stands between quotes: it closes the field, unless another one follows. -/
  | closing
  /-- Before the first field of a row, behind a carriage return that a line feed may follow. -/
  | returned
deriving DecidableEq

/-- What a reader has read: the rows, the cells of the row that it is in, and the field that it is in. -/
structure Reading where
  rows : List (List (List Char))
  cells : List (List Char)
  field : List Char
  mode : Mode

namespace Reading

/-- Take a character into the field. -/
def take (r : Reading) (mode : Mode) (c : Char) : Reading := { r with field := r.field ++ [c], mode }

/-- The row up to here. A row of which nothing has been read has no cells. -/
def row (r : Reading) : List (List Char) :=
  if r.cells = [] ∧ (r.mode = .fresh ∨ r.mode = .returned) then [] else r.cells ++ [r.field]

/-- End the field. -/
def endField (r : Reading) : Reading := ⟨r.rows, r.cells ++ [r.field], [], .fresh⟩

/-- End the row. -/
def endRow (r : Reading) (mode : Mode) : Reading := ⟨r.rows ++ [r.row], [], [], mode⟩

/-- Read a character that stands outside of quotes. -/
def outside (r : Reading) (c : Char) : Reading :=
  if c = ',' then r.endField
  else if c = '\r' then r.endRow .returned
  else if c = '\n' then r.endRow .fresh
  else r.take .plain c

/-- Read the first character of a field. -/
def first (r : Reading) (c : Char) : Reading :=
  if c = '"' then { r with mode := .quoted } else r.outside c

/-- Read a character. -/
def step (r : Reading) (c : Char) : Reading :=
  match r.mode with
  | .fresh => r.first c
  | .plain => r.outside c
  | .quoted => if c = '"' then { r with mode := .closing } else r.take .quoted c
  | .closing => if c = '"' then r.take .quoted c else r.outside c
  | .returned => if c = '\n' then { r with mode := .fresh } else r.first c

/-- Read several characters. -/
def run (r : Reading) (cs : List Char) : Reading := cs.foldl step r

/-- The rows at the end of a text, with the one that no line end has ended. -/
def finish (r : Reading) : List (List (List Char)) := if r.row = [] then r.rows else r.rows ++ [r.row]

end Reading

/-- The rows of a text, each a list of cells. -/
def read (text : List Char) : List (List (List Char)) := (Reading.run ⟨[], [], [], .fresh⟩ text).finish

section Fields

variable {rows : List (List (List Char))} {cells : List (List Char)}

/-- Reading one text after the other. -/
theorem Reading.run_append (r : Reading) (front back : List Char) :
    r.run (front ++ back) = (r.run front).run back := List.foldl_append

/-- Outside of quotes a character that needs none is read as it is. -/
theorem outside_of_not_special {c : Char} (other : isSpecial c = false) (r : Reading) :
    r.outside c = r.take .plain c := by
  simp only [isSpecial, Bool.or_eq_false_iff, beq_eq_false_iff_ne] at other
  simp [Reading.outside, other]

/-- Characters that need no quotes are read as they are. -/
theorem run_plain {s : List Char} (plain : s.any isSpecial = false) (front : List Char) :
    Reading.run ⟨rows, cells, front, .plain⟩ s = ⟨rows, cells, front ++ s, .plain⟩ := by
  induction s generalizing front with
  | nil => simp [Reading.run]
  | cons c rest inductionHypothesis =>
    obtain ⟨other, others⟩ : isSpecial c = false ∧ rest.any isSpecial = false := by simpa using plain
    have step : Reading.step ⟨rows, cells, front, .plain⟩ c = ⟨rows, cells, front ++ [c], .plain⟩ :=
      outside_of_not_special other _
    rw [Reading.run, List.foldl_cons, step, ← Reading.run, inductionHypothesis others, List.append_assoc,
      List.singleton_append]

/-- Between quotes every character is read, a quote where it stands twice. -/
theorem run_doubled (s front : List Char) :
    Reading.run ⟨rows, cells, front, .quoted⟩ (doubled s) = ⟨rows, cells, front ++ s, .quoted⟩ := by
  induction s generalizing front with
  | nil => simp [doubled, Reading.run]
  | cons c rest inductionHypothesis =>
    have onward := inductionHypothesis (front ++ [c])
    rw [List.append_assoc, List.singleton_append] at onward
    by_cases quote : c = '"'
    · simpa [doubled, quote, Reading.run, Reading.step, Reading.take] using onward
    · simpa [doubled, quote, Reading.run, Reading.step, Reading.take] using onward

/-- A field has been read up to its end. -/
inductive Holds (rows : List (List (List Char))) (cells : List (List Char)) : List Char → Reading → Prop where
  | empty : Holds rows cells [] ⟨rows, cells, [], .fresh⟩
  | plain (s : List Char) : Holds rows cells s ⟨rows, cells, s, .plain⟩
  | closing (s : List Char) : Holds rows cells s ⟨rows, cells, s, .closing⟩

/-- A written field is read up to its end. -/
theorem holds_field (rows : List (List (List Char))) (cells : List (List Char)) (s : List Char) :
    Holds rows cells s (Reading.run ⟨rows, cells, [], .fresh⟩ (field s)) := by
  rw [field]
  split
  case isTrue =>
    have opened : Reading.run ⟨rows, cells, [], .fresh⟩ ('"' :: doubled s ++ ['"']) =
        (Reading.run ⟨rows, cells, [], .quoted⟩ (doubled s)).run ['"'] :=
      Reading.run_append _ ('"' :: doubled s) ['"']
    rw [opened, run_doubled]
    exact .closing s
  case isFalse plain =>
    cases s with
    | nil => exact .empty
    | cons c rest =>
      obtain ⟨other, others⟩ : isSpecial c = false ∧ rest.any isSpecial = false := by simpa using plain
      have notQuote : c ≠ '"' := by
        rintro rfl
        exact absurd other (by decide)
      have step : Reading.step ⟨rows, cells, [], .fresh⟩ c = ⟨rows, cells, [c], .plain⟩ := by
        rw [Reading.step, Reading.first, if_neg notQuote]
        exact outside_of_not_special other _
      rw [Reading.run, List.foldl_cons, step, ← Reading.run, run_plain others]
      exact .plain (c :: rest)

/-- A comma ends the field behind which it stands. -/
theorem Holds.comma {s : List Char} {r : Reading} (held : Holds rows cells s r) :
    r.step ',' = ⟨rows, cells ++ [s], [], .fresh⟩ := by
  cases held <;> rfl

/-- A line end ends the row behind which it stands; there has to be something in it. -/
theorem Holds.lineEnd {s : List Char} {r : Reading} (held : Holds rows cells s r) (filled : cells ≠ [] ∨ s ≠ []) :
    r.run ['\r', '\n'] = ⟨rows ++ [cells ++ [s]], [], [], .fresh⟩ := by
  have ended (mode : Mode) (row : Reading.row ⟨rows, cells, s, mode⟩ = cells ++ [s]) :
      ((⟨rows, cells, s, mode⟩ : Reading).endRow .returned).step '\n' =
        ⟨rows ++ [cells ++ [s]], [], [], .fresh⟩ := by
    simp [Reading.endRow, Reading.step, row]
  cases held with
  | empty =>
    have occupied : cells ≠ [] := filled.resolve_right fun other => other rfl
    exact ended .fresh (if_neg fun nothing => occupied nothing.1)
  | plain => exact ended .plain (if_neg (by simp))
  | closing => exact ended .closing (if_neg (by simp))

end Fields

section Rows

/-- The fields of a row are read behind those before them. -/
theorem run_fields (rows : List (List (List Char))) (before : List (List Char)) (first : List Char)
    (more : List (List Char)) (filled : before ++ first :: more ≠ [[]]) :
    Reading.run ⟨rows, before, [], .fresh⟩ (row (first :: more)) =
      ⟨rows ++ [before ++ first :: more], [], [], .fresh⟩ := by
  induction more generalizing before first with
  | nil =>
    have held := holds_field rows before first
    have single : row [first] = field first ++ ['\r', '\n'] := by simp [row]
    have occupied : before ≠ [] ∨ first ≠ [] := by
      by_cases alone : before = []
      · right
        rintro rfl
        exact filled (by rw [alone, List.nil_append])
      · exact .inl alone
    rw [single, Reading.run_append, held.lineEnd occupied]
  | cons second rest inductionHypothesis =>
    have held := holds_field rows before first
    have split : row (first :: second :: rest) = field first ++ ',' :: row (second :: rest) := by
      simp [row, List.intercalate_cons_cons]
    have others := inductionHypothesis (before ++ [first]) second (by simpa using filled)
    rw [split, Reading.run_append, Reading.run, List.foldl_cons, held.comma, ← Reading.run, others]
    simp

/-- A written row is read as its cells. Only a single empty cell leaves nothing to be read. -/
theorem run_row (rows : List (List (List Char))) (cells : List (List Char)) (filled : cells ≠ [[]]) :
    Reading.run ⟨rows, [], [], .fresh⟩ (row cells) = ⟨rows ++ [cells], [], [], .fresh⟩ := by
  cases cells with
  | nil => rfl
  | cons first more => exact run_fields rows [] first more filled

/-- Written rows are read as they were. -/
theorem read_rows (table : List (List (List Char))) (filled : [[]] ∉ table) : read (table.flatMap row) = table := by
  have onward (rows : List (List (List Char))) :
      Reading.run ⟨rows, [], [], .fresh⟩ (table.flatMap row) = ⟨rows ++ table, [], [], .fresh⟩ := by
    induction table generalizing rows with
    | nil => simp [Reading.run]
    | cons cells rest inductionHypothesis =>
      simp only [List.mem_cons, not_or] at filled
      rw [List.flatMap_cons, Reading.run_append, run_row rows cells (Ne.symm filled.1),
        inductionHypothesis filled.2, List.append_assoc, List.singleton_append]
  rw [read, onward []]
  simp [Reading.finish, Reading.row]

end Rows

/-- A report is read as the row of titles and one row for each slot, in order.

Numbers are in decimal, and what is absent is an empty cell. Integers are taken to be written out whatever their size,
as those that count slots and lines are; of the numbers with more digits than an integer may have, which a vtable
could be made of by hand, nothing is told here.

The reader goes through the text character by character, within quotes or not. A cell that holds a separator, a quote
or a line end stands in quotes, with each quote doubled, and is read to the quote that is not followed by another; any
other cell is read to the separator behind it. So each row is read as it was written, and no row is mistaken for an
empty line, because each has more than one cell. -/
theorem read_report (vtable : Vtable) :
    read (render vtable) =
      ["Index".toList, "Method".toList, "Line".toList, "Interface".toList, "IID".toList] ::
        vtable.methods.map fun m =>
          [(toString m.index).toList, m.name.toList, m.line.elim [] fun line => (toString line).toList,
            m.interface.toList, m.iid.elim [] String.toList] := by
  have filled : [[]] ∉ table vtable := by simp [table, titles, cells]
  have slots (m : Method) : cells m =
      [(toString m.index).toList, m.name.toList, m.line.elim [] fun line => (toString line).toList,
        m.interface.toList, m.iid.elim [] String.toList] := by
    obtain ⟨index, name, line, interface, iid⟩ := m
    cases line <;> cases iid <;> rfl
  rw [render, read_rows _ filled, table, funext slots]
  rfl

/-- Cells with separators, quotes and line ends in them, written and read. -/
example : read (row ["a,\"b\"".toList, "\r\n".toList, []]) = [["a,\"b\"".toList, "\r\n".toList, []]] := by
  decide

end ComLayout.Report.Csv
