import ComLayout.Proofs.Lookup.SlotTexts
import ComLayout.Proofs.Report.JsonReading
import ComLayout.Proofs.Text.Tokens
import ComLayout.Report.Listing
import ComLayout.Text.Split
import Mathlib.Data.List.Forall2

/-!
# Reading the printed vtable back

Each line of a printed table begins with its first cell, and each cell begins at the same column in all lines,
since every column is as wide as its widest cell. So the cells of a line are its tokens, unless one of them is
empty or holds white space. What a header gives to a slot is narrower than that: words and GUIDs are tokens, and
none of them is a dash, so the slots can be read back from what is printed.
-/

namespace ComLayout.Report.Listing

open Header Lookup Text

section Columns

/-- No cell of a row is wider than its column. -/
def Fits (row : Row) (widths : List Nat) : Prop :=
  List.Forall₂ (fun cell width => cell.length ≤ width) row widths

/-- The columns at which cells begin, if the first begins at the given one: two spaces follow on each width. -/
def starts (column : Nat) : List Nat → List Nat
  | [] => []
  | width :: widths => column :: starts (column + width + 2) widths

/-- Each width has its column. -/
theorem length_starts (column : Nat) (widths : List Nat) : (starts column widths).length = widths.length := by
  induction widths generalizing column with
  | nil => rfl
  | cons width widths inductionHypothesis => rw [starts, List.length_cons, List.length_cons, inductionHypothesis]

/-- What fits still fits when columns become wider. -/
theorem Fits.wider {row : Row} {columns others : List Nat} (fits : Fits row columns)
    (same : others.length = columns.length) : Fits row (wider columns others) := by
  induction fits generalizing others with
  | nil =>
    rw [List.eq_nil_of_length_eq_zero same]
    exact .nil
  | cons narrow _ inductionHypothesis =>
    cases others with
    | nil => exact absurd same (by simp)
    | cons other others =>
      exact .cons (Nat.le_trans narrow (Nat.le_max_left ..)) (inductionHypothesis (Nat.succ.inj same))

/-- A row fits when the columns have become as wide as its cells. -/
theorem fits_wider {row : Row} {columns : List Nat} (same : row.length = columns.length) :
    Fits row (Listing.wider columns (row.map List.length)) := by
  induction row generalizing columns with
  | nil =>
    rw [List.eq_nil_of_length_eq_zero same.symm]
    exact .nil
  | cons cell row inductionHypothesis =>
    cases columns with
    | nil => exact absurd same (by simp)
    | cons column columns => exact .cons (Nat.le_max_right ..) (inductionHypothesis (Nat.succ.inj same))

/-- Making columns wider keeps their number. -/
theorem length_wider {columns others : List Nat} (same : others.length = columns.length) :
    (Listing.wider columns others).length = columns.length := by
  rw [Listing.wider, List.length_zipWith, same, Nat.min_self]

/-- The columns after some rows have been gone through: what fitted before fits, and so do these rows. -/
theorem fits_foldl {rows : List Row} {columns : List Nat} (even : ∀ row ∈ rows, row.length = columns.length) :
    let wide := rows.foldl (fun acc row => Listing.wider acc (row.map List.length)) columns
    (∀ row, Fits row columns → Fits row wide) ∧ ∀ row ∈ rows, Fits row wide := by
  induction rows generalizing columns with
  | nil => exact ⟨fun _ fits => fits, by simp⟩
  | cons first rest inductionHypothesis =>
    obtain ⟨here, behind⟩ := List.forall_mem_cons.mp even
    have same : (first.map List.length).length = columns.length := by rwa [List.length_map]
    have wide : ∀ row ∈ rest, row.length = (Listing.wider columns (first.map List.length)).length :=
      fun row member => (behind row member).trans (length_wider same).symm
    obtain ⟨before, others⟩ := inductionHypothesis wide
    refine ⟨fun row fits => before row (fits.wider same), ?_⟩
    rw [List.forall_mem_cons]
    exact ⟨before first (fits_wider here), others⟩

/-- The titles and all rows fit into the columns of a table. -/
theorem fits_widths {rows : List Row} (even : ∀ row ∈ rows, row.length = titles.length) :
    ∀ row ∈ titles :: rows, Fits row (widths rows) := by
  have lengths : ∀ row ∈ rows, row.length = (titles.map List.length).length := by simpa using even
  obtain ⟨before, each⟩ := fits_foldl lengths
  rw [List.forall_mem_cons]
  have narrow : Fits titles (titles.map List.length) := by
    rw [Fits, List.forall₂_map_right_iff, List.forall₂_same]
    exact fun cell _ => Nat.le_refl _
  exact ⟨before titles narrow, each⟩

/-- The tokens of cells with spaces between them are the cells, each at its column. -/
theorem tokensFrom_filled {row : Row} {columns : List Nat} (fits : Fits row columns)
    (whole : ∀ cell ∈ row, IsToken cell) (column : Nat) :
    tokensFrom column (List.intercalate [' ', ' '] (List.zipWith filled row columns)) =
      (starts column columns).zip row := by
  have spaces (n : Nat) : ∀ c ∈ List.replicate n ' ', isBlank c = true := by
    intro c held
    rw [List.eq_of_mem_replicate held]
    decide
  induction fits generalizing column with
  | nil => rfl
  | @cons cell width row columns narrow fits inductionHypothesis =>
    obtain ⟨here, behind⟩ := List.forall_mem_cons.mp whole
    have onward := inductionHypothesis behind (column + width + 2)
    rw [starts, List.zip_cons_cons, ← onward, List.zipWith_cons_cons]
    cases others : List.zipWith filled row columns with
    | nil =>
      have last : tokensFrom column (cell ++ []) = (column, cell) :: tokensFrom (column + cell.length) [] :=
        tokensFrom_token here (by simp) column
      rw [List.intercalate_singleton, filled, tokensFrom_append_blanks (spaces _)]
      rwa [List.append_nil] at last
    | cons next more =>
      have gap : filled cell width ++ [' ', ' '] ++ List.intercalate [' ', ' '] (next :: more) =
          cell ++ (List.replicate (width - cell.length + 2) ' ' ++ List.intercalate [' ', ' '] (next :: more)) := by
        rw [filled, List.replicate_add]
        simp
      have ends : ∀ c, (List.replicate (width - cell.length + 2) ' ' ++
          List.intercalate [' ', ' '] (next :: more)).head? = some c → isBlank c = true := by
        intro c first
        rw [← Option.some.inj first]
        decide
      rw [List.intercalate_cons_cons, gap, tokensFrom_token here ends, tokensFrom_blanks (spaces _),
        List.length_replicate]
      congr 2
      omega

/-- The tokens of a line are its cells, each at the column that it has in every line. -/
theorem tokens_line {row : Row} {columns : List Nat} (fits : Fits row columns)
    (whole : ∀ cell ∈ row, IsToken cell) : tokens (line columns row) = (starts 0 columns).zip row := by
  rw [line, tokens_trimEnd]
  exact tokensFrom_filled fits whole 0

end Columns

section Reading

/-- What a token stands for: nothing, if it is a dash. -/
def unlessDash? {α : Type} (read : List Char → Option α) (token : List Char) : Option (Option α) :=
  if token = ['-'] then some none else (read token).map some

/-- The slot whose cells these are. -/
def slotOf? : Row → Option Method
  | [index, name, line, interface, iid] => do
    let index ← Json.intOf? index
    let line ← unlessDash? Json.intOf? line
    let iid ← unlessDash? (some ∘ String.ofList) iid
    return ⟨index, String.ofList name, line, String.ofList interface, iid⟩
  | _ => none

/-- What stands in front of the header in the last line. -/
def lead : List Char := "source: ".toList

/-- The slots that a printed table lists: the tokens of each line between the titles and the header are those of
a slot. -/
def read? (text : List Char) : Option (List Method) :=
  ((split '\n' text).tail.takeWhile fun line => !lead.isPrefixOf line).mapM fun line =>
    slotOf? ((tokens line).map Prod.snd)

/-- A slot whose texts can be told apart in a line: each of them is a token, and no identifier is a dash. -/
structure Legible (m : Method) : Prop where
  name : IsToken m.name.toList
  interface : IsToken m.interface.toList
  iid : ∀ iid, m.iid = some iid → IsToken iid.toList ∧ iid.toList ≠ ['-']

/-- White space holds no digit of either base. -/
theorem no_digit_of_isBlank (c : Char) (blank : isBlank c = true) : c.isDigit = false ∧ isHexDigit c = false := by
  revert c
  exact forall_blank (by decide +kernel)

/-- Integers are tokens, none of them a dash. -/
theorem isToken_toString (n : Int) : IsToken (toString n).toList ∧ (toString n).toList ≠ ['-'] := by
  have read := Json.intOf?_toString n
  have unread : Json.intOf? [] = none ∧ Json.intOf? ['-'] = none := by decide
  refine ⟨⟨fun empty => ?_, fun c held => ?_⟩, fun dash => ?_⟩
  · rw [empty, unread.1] at read
    exact absurd read (by simp)
  · rcases Number.mem_toString_int held with rfl | digit
    · decide
    · cases blank : isBlank c with
      | false => rfl
      | true => exact absurd (no_digit_of_isBlank c blank).1 (by simp [digit])
  · rw [dash, unread.2] at read
    exact absurd read (by simp)

/-- The cell for an identifier that is not empty. -/
theorem iidCell_some {iid : String} (filled : iid.toList ≠ []) : iidCell (some iid) = iid.toList := by
  rw [iidCell, if_neg (by simpa using filled)]

/-- The cells for a legible slot are tokens. -/
theorem isToken_cells {m : Method} (legible : Legible m) : ∀ cell ∈ cells m, IsToken cell := by
  have dash : IsToken ['-'] := by decide
  have line : IsToken ((m.line.map toString).getD "-").toList := by
    cases m.line with
    | none => exact dash
    | some n => exact (isToken_toString n).1
  have iid : IsToken (iidCell m.iid) := by
    cases known : m.iid with
    | none => exact dash
    | some iid =>
      have whole := (legible.iid iid known).1
      rwa [iidCell_some whole.1]
  simp only [cells, List.forall_mem_cons, (isToken_toString m.index).1, legible.name, line, legible.interface, iid,
    true_and, List.not_mem_nil, false_implies, implies_true]

/-- The cells for a legible slot are read as that slot. -/
theorem slotOf?_cells {m : Method} (legible : Legible m) : slotOf? (cells m) = some m := by
  have line : unlessDash? Json.intOf? ((m.line.map toString).getD "-").toList = some m.line := by
    cases m.line with
    | none => rfl
    | some n =>
      rw [Option.map_some, Option.getD_some, unlessDash?, if_neg (isToken_toString n).2, Json.intOf?_toString,
        Option.map_some]
  have iid : unlessDash? (some ∘ String.ofList) (iidCell m.iid) = some m.iid := by
    cases known : m.iid with
    | none => rfl
    | some iid =>
      obtain ⟨whole, other⟩ := legible.iid iid known
      simp [unlessDash?, iidCell_some whole.1, other]
  rw [cells, slotOf?, Json.intOf?_toString, line, iid]
  simp

end Reading

section Lines

/-- What stands in a joined text stands in a piece of it or in what joins them. -/
theorem mem_intercalate {joint : List Char} {pieces : List (List Char)} {c : Char}
    (held : c ∈ joint.intercalate pieces) : c ∈ joint ∨ ∃ piece ∈ pieces, c ∈ piece := by
  induction pieces with
  | nil => exact absurd held (by simp)
  | cons first rest inductionHypothesis =>
    cases rest with
    | nil => exact .inr ⟨first, List.mem_cons_self, by rwa [List.intercalate_singleton] at held⟩
    | cons second more =>
      rw [List.intercalate_cons_cons, List.mem_append, List.mem_append] at held
      rcases held with (here | between) | behind
      · exact .inr ⟨first, List.mem_cons_self, here⟩
      · exact .inl between
      · exact (inductionHypothesis behind).imp_right fun ⟨piece, among, inside⟩ =>
          ⟨piece, List.mem_cons_of_mem first among, inside⟩

/-- Lines that hold no line feed are cut apart where they end. -/
theorem split_lines {lines : List (List Char)} (whole : ∀ line ∈ lines, '\n' ∉ line) (rest : List Char) :
    split '\n' (lines.flatMap (· ++ ['\n']) ++ rest) = lines ++ split '\n' rest := by
  induction lines with
  | nil => rfl
  | cons line lines inductionHypothesis =>
    obtain ⟨here, behind⟩ := List.forall_mem_cons.mp whole
    rw [List.flatMap_cons, List.append_assoc, List.append_assoc, List.singleton_append,
      split_append '\n' line _ here, inductionHypothesis behind, List.cons_append]

/-- What stands in front of a text goes to its first piece. -/
theorem exists_split_front {separator : Char} {front : List Char} (whole : separator ∉ front) (rest : List Char) :
    ∃ piece more, split separator (front ++ rest) = (front ++ piece) :: more := by
  induction front with
  | nil => exact List.exists_cons_of_ne_nil (split_ne_nil separator rest)
  | cons c front inductionHypothesis =>
    rw [List.mem_cons, not_or] at whole
    obtain ⟨piece, more, cut⟩ := inductionHypothesis whole.2
    have other : c ≠ separator := fun same => whole.1 same.symm
    exact ⟨piece, more, by simp [split, other, cut, extendFirst]⟩

/-- A line holds no line feed if the cells of its row are tokens. -/
theorem not_mem_line {row : Row} (columns : List Nat) (whole : ∀ cell ∈ row, IsToken cell) :
    '\n' ∉ line columns row := by
  intro held
  obtain ⟨blanks, cut, -⟩ := exists_trimEnd_append (List.intercalate [' ', ' '] (List.zipWith filled row columns))
  have before : '\n' ∈ List.intercalate [' ', ' '] (List.zipWith filled row columns) := by
    rw [cut]
    exact List.mem_append_left blanks held
  rcases mem_intercalate before with between | ⟨piece, among, inside⟩
  · exact absurd between (by decide)
  · rw [← List.map_uncurry_zip_eq_zipWith, List.mem_map] at among
    obtain ⟨⟨cell, width⟩, paired, rfl⟩ := among
    rw [Function.uncurry_apply_pair, filled, List.mem_append] at inside
    rcases inside with cellHeld | fill
    · exact absurd ((whole cell (List.of_mem_zip paired).1).2 '\n' cellHeld) (by decide)
    · exact absurd (List.eq_of_mem_replicate fill) (by decide)

end Lines

section Tables

/-- The rows of a table have as many cells as there are titles. -/
theorem length_row {methods : List Method} : ∀ row ∈ methods.map cells, row.length = titles.length := by
  intro row listed
  obtain ⟨m, -, rfl⟩ := List.mem_map.mp listed
  rfl

/-- The rows of a table of legible slots fit into its columns, and their cells are tokens. -/
theorem fits_table {methods : List Method} (legible : ∀ m ∈ methods, Legible m) :
    ∀ row ∈ titles :: methods.map cells, Fits row (widths (methods.map cells)) ∧ ∀ cell ∈ row, IsToken cell := by
  have whole : ∀ row ∈ titles :: methods.map cells, ∀ cell ∈ row, IsToken cell := by
    rw [List.forall_mem_cons, List.forall_mem_map]
    exact ⟨by decide, fun m member => isToken_cells (legible m member)⟩
  exact fun row listed => ⟨fits_widths length_row row listed, whole row listed⟩

/-- The tokens of the lines of a table of legible slots are the cells of its rows, in the same columns. -/
theorem tokens_tableLines {methods : List Method} (legible : ∀ m ∈ methods, Legible m) :
    (tableLines methods).map tokens =
      (titles :: methods.map cells).map (starts 0 (widths (methods.map cells))).zip := by
  rw [tableLines, List.map_map]
  refine List.map_congr_left fun row listed => ?_
  obtain ⟨fits, whole⟩ := fits_table legible row listed
  exact tokens_line fits whole

/-- The lines of a table of legible slots are lines: no line feed is in them. -/
theorem not_mem_tableLines {methods : List Method} (legible : ∀ m ∈ methods, Legible m) :
    ∀ line ∈ tableLines methods, '\n' ∉ line := by
  rw [tableLines, List.forall_mem_map]
  exact fun row listed => not_mem_line _ (fits_table legible row listed).2

/-- A table has five columns. -/
theorem length_widths (methods : List Method) : (widths (methods.map cells)).length = titles.length :=
  ((fits_widths length_row) titles List.mem_cons_self).length_eq.symm

/-- The tokens of the line of a slot are its cells. -/
theorem map_tokens_line {methods : List Method} (legible : ∀ m ∈ methods, Legible m) {m : Method}
    (member : m ∈ methods) :
    (tokens (line (widths (methods.map cells)) (cells m))).map Prod.snd = cells m := by
  obtain ⟨fits, whole⟩ := fits_table legible (cells m) (List.mem_cons_of_mem _ (List.mem_map_of_mem member))
  have wide : (cells m).length ≤ (starts 0 (widths (methods.map cells))).length := by
    rw [length_starts, length_widths]
    exact Nat.le_refl _
  rw [tokens_line fits whole, List.map_snd_zip wide]

/-- The line of a slot is not taken for that of the header: it begins with an index. -/
theorem not_lead_line {methods : List Method} (legible : ∀ m ∈ methods, Legible m) {m : Method}
    (member : m ∈ methods) : lead.isPrefixOf (line (widths (methods.map cells)) (cells m)) = false := by
  rw [Bool.eq_false_iff, Ne, List.isPrefixOf_iff_prefix]
  rintro ⟨more, split⟩
  have word : IsToken "source:".toList := by decide
  have ends : ∀ c, (' ' :: more).head? = some c → isBlank c = true := by
    intro c first
    rw [← Option.some.inj first]
    decide
  have whole : lead ++ more = "source:".toList ++ ' ' :: more := rfl
  have listed := map_tokens_line legible member
  rw [← split, whole, tokens, tokensFrom_token word ends, List.map_cons] at listed
  have index : "source:".toList = (toString m.index).toList := (List.cons.inj listed).1
  have read := Json.intOf?_toString m.index
  have unread : Json.intOf? "source:".toList = none := by decide
  rw [← index, unread] at read
  exact absurd read (by simp)

/-- The slots are read back from a printed table of legible slots. -/
theorem read?_render {vtable : Vtable} (legible : ∀ m ∈ vtable.methods, Legible m) (header : String) :
    read? (render vtable header) = some vtable.methods := by
  have whole := not_mem_tableLines legible
  have unfed : '\n' ∉ lead := by decide
  obtain ⟨piece, more, last⟩ := exists_split_front unfed (header.toList ++ ['\n'])
  have lines : split '\n' (render vtable header) = tableLines vtable.methods ++ (lead ++ piece) :: more := by
    have ended : render vtable header =
        (tableLines vtable.methods).flatMap (· ++ ['\n']) ++ (lead ++ (header.toList ++ ['\n'])) := by
      rw [render, lines, List.flatMap_append, List.flatMap_singleton, List.append_assoc]
      rfl
    rw [ended, split_lines whole, last]
  have slots : (tableLines vtable.methods).tail =
      vtable.methods.map fun m => line (widths (vtable.methods.map cells)) (cells m) := by
    simp [tableLines]
  have others : ∀ row ∈ vtable.methods.map fun m => line (widths (vtable.methods.map cells)) (cells m),
      (!lead.isPrefixOf row) = true := by
    rw [List.forall_mem_map]
    exact fun m member => by rw [not_lead_line legible member, Bool.not_false]
  have some_ : tableLines vtable.methods ≠ [] := by simp [tableLines]
  have leads : lead.isPrefixOf (lead ++ piece) = true := List.isPrefixOf_iff_prefix.mpr (List.prefix_append _ _)
  rw [read?, lines, List.tail_append_of_ne_nil some_, slots, List.takeWhile_append_of_pos others,
    List.takeWhile_cons_of_neg (by simp [leads]), List.append_nil]
  refine Json.mapM_map fun m member => ?_
  rw [map_tokens_line legible member, slotOf?_cells (legible m member)]

end Tables

section Found

/-- What a slot tells: its index, its name, its line, its interface and the identifier of that. A dash stands for what
is absent. -/
def texts (m : Method) : List String :=
  [toString m.index, m.name, m.line.elim "-" toString, m.interface, m.iid.getD "-"]

/-- The cells for a legible slot are its texts. -/
theorem cells_eq {m : Method} (legible : Legible m) : cells m = (texts m).map String.toList := by
  have line : (m.line.map toString).getD "-" = m.line.elim "-" toString := by cases m.line <;> rfl
  have iid : iidCell m.iid = (m.iid.getD "-").toList := by
    cases known : m.iid with
    | none => rfl
    | some iid => exact iidCell_some (legible.iid iid known).1.1
  rw [cells, line, iid]
  rfl

/-- Words are tokens. -/
theorem isToken_of_wordRun {cs : List Char} (word : WordRun cs) : IsToken cs :=
  ⟨word.1, fun c held => isBlank_of_isWord c (word.2 c held)⟩

/-- GUIDs in braces are tokens, none of them a dash. -/
theorem isToken_formatIid (guid : Guid) : IsToken (formatIid (String.ofList guid.text)).toList ∧
    (formatIid (String.ofList guid.text)).toList ≠ ['-'] := by
  have braced : (formatIid (String.ofList guid.text)).toList = '\x7b' :: (guid.text ++ ['\x7d']) := by
    simp [formatIid]
  rw [braced]
  refine ⟨⟨List.cons_ne_nil _ _, ?_⟩, by simp⟩
  rw [List.forall_mem_cons, List.forall_mem_append]
  refine ⟨by decide, fun c held => ?_, by decide⟩
  rcases guid.mem_text c held with rfl | digit
  · decide
  · cases blank : isBlank c with
    | false => rfl
    | true => exact absurd (no_digit_of_isBlank c blank).2 (by simp [digit])

/-- A slot that holds what slots may hold is legible, if no white space is in the name of its interface. -/
theorem legible_of_spells {name : String} (given : name.toList ≠ []) {m : Method} (spells : m.slot.Spells name)
    (solid : ∀ c ∈ m.interface.toList, isBlank c = false) : Legible m := by
  obtain ⟨word, named, same⟩ := spells.interface
  have some_ : word ≠ [] := named.elim (fun requested => requested ▸ given) fun word => word.1
  have filled : m.interface.toList ≠ [] := by
    intro empty
    have lengths := ((sameWord_iff word m.interface.toList).mp same).length_eq
    rw [empty] at lengths
    exact some_ (List.eq_nil_of_length_eq_zero lengths)
  refine
    { name := isToken_of_wordRun spells.name
      interface := ⟨filled, solid⟩
      iid := fun iid known => ?_ }
  obtain ⟨guid, rfl⟩ := spells.iid iid known
  exact isToken_formatIid guid

/-- The printed vtable that a lookup finds can be read back, if no interface of its slots has white space in its name.

The lines before that of the header hold five tokens each, the titles and then the texts of each slot, in the same
columns in all of them. None ends in white space, and the slots are what is read from the text.

A cell is padded to the width of its column, which is the greatest of its texts, so each token begins where its column
does. What is cut off at the end of a line are blanks. The texts of a slot hold no white space: methods are named by
words, interfaces by assumption, and neither do numbers and identifiers, which are told from the dash that stands for
an absent one. -/
theorem found_listing {tree : Tree} {name pattern : String} {recurse : Bool} {filter : Filter} {vtable : Vtable}
    (found : (find tree name pattern recurse filter).1 = .ok vtable)
    (solid : ∀ m ∈ vtable.methods, ∀ c ∈ m.interface.toList, isBlank c = false) (header : String) :
    (∃ (lines : List (List Char)) (columns : List Nat),
      render vtable header = (lines ++ [("source: " ++ header).toList]).flatMap (· ++ ['\n']) ∧
      (∀ line ∈ lines, '\n' ∉ line ∧ ∀ c, line.getLast? = some c → isBlank c = false) ∧
      columns.length = 5 ∧
      lines.map tokens = (["index", "name", "line", "interface", "iid"] :: vtable.methods.map texts).map fun row =>
        columns.zip (row.map String.toList)) ∧
      read? (render vtable header) = some vtable.methods := by
  have given : name.toList ≠ [] := by
    simpa using (find_eq_ok tree name pattern recurse filter vtable found).1
  have legible : ∀ m ∈ vtable.methods, Legible m :=
    fun m member => legible_of_spells given (found_spells found m member) (solid m member)
  refine ⟨⟨tableLines vtable.methods, starts 0 (widths (vtable.methods.map cells)), ?_, ?_, ?_, ?_⟩,
    read?_render legible header⟩
  · rw [render, lines, String.toList_append]
  · refine fun line listed => ⟨not_mem_tableLines legible line listed, fun c last => ?_⟩
    obtain ⟨row, -, rfl⟩ := List.mem_map.mp listed
    exact isBlank_getLast?_trimEnd last
  · rw [length_starts, length_widths]
    rfl
  · have rows : vtable.methods.map cells = vtable.methods.map fun m => (texts m).map String.toList :=
      List.map_congr_left fun m member => cells_eq (legible m member)
    rw [tokens_tableLines legible, List.map_cons, List.map_cons, rows, List.map_map, List.map_map]
    rfl

/-- The slots of an interface that derives from another are read back from the printed vtable. -/
theorem derived_listing :
    (find derivedTree "iderived" "d2d1.h" false Filter.none).1 = .ok derivedVtable ∧
      (∀ m ∈ derivedVtable.methods, ∀ c ∈ m.interface.toList, isBlank c = false) ∧
      read? (render derivedVtable "d2d1.h") = some derivedVtable.methods := by
  have found : (find derivedTree "iderived" "d2d1.h" false Filter.none).1 = .ok derivedVtable := by decide +kernel
  have solid : ∀ m ∈ derivedVtable.methods, ∀ c ∈ m.interface.toList, isBlank c = false := by decide +kernel
  exact ⟨found, solid, (found_listing found solid "d2d1.h").2⟩

end Found

end ComLayout.Report.Listing
