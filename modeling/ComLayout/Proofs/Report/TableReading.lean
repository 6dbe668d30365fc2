import ComLayout.Text.LineEnds
import ComLayout.Text.Split

/-!
# Reading a table

A table is read line by line, whatever ends its lines, and a line is cut at the bars that no backslash escapes.
Texts that hold neither line ends nor such bars may stand in a cell, and a line of them is cut into its cells. A
text stands between others, so what breaks it is counted apart from what they hold.
-/

namespace ComLayout

namespace Text

/-- Lists of which none is empty are as many as they have items only if each has one. -/
theorem length_eq_one_of_flatMap {α β : Type} {f : α → List β} {xs : List α} (some_ : ∀ x, f x ≠ [])
    (length : (xs.flatMap f).length = xs.length) : ∀ x ∈ xs, (f x).length = 1 := by
  have least (ys : List α) : ys.length ≤ (ys.flatMap f).length := by
    induction ys with
    | nil => exact Nat.le_refl 0
    | cons y ys inductionHypothesis =>
      have here := List.length_pos_iff.mpr (some_ y)
      rw [List.flatMap_cons, List.length_append, List.length_cons]
      omega
  induction xs with
  | nil => simp
  | cons x xs inductionHypothesis =>
    have here := List.length_pos_iff.mpr (some_ x)
    have behind := least xs
    rw [List.flatMap_cons, List.length_append, List.length_cons] at length
    rw [List.forall_mem_cons]
    exact ⟨by omega, inductionHypothesis (by omega)⟩

section Lines

/-- The lines of a text, whatever ends them. -/
def readLines (cs : List Char) : List (List Char) := split '\n' (unifyLineEnds cs)

/-- A text has a line. -/
theorem readLines_ne_nil (cs : List Char) : readLines cs ≠ [] := split_ne_nil '\n' (unifyLineEnds cs)

/-- Each line end is written as a line feed. -/
theorem feed_mem_unifyLineEnds (cs : List Char) : '\n' ∈ unifyLineEnds cs ↔ '\n' ∈ cs ∨ '\r' ∈ cs := by
  fun_induction unifyLineEnds cs with
  | case1 => simp
  | case2 rest => simp
  | case3 c rest alone inductionHypothesis =>
    by_cases isReturn : c = '\r'
    · simp [isReturn]
    · have other : '\r' ≠ c := Ne.symm isReturn
      simp [isReturn, other, inductionHypothesis, or_assoc]

/-- A text without line ends is one line, and no other text is. -/
theorem length_readLines (cs : List Char) : (readLines cs).length = 1 ↔ '\n' ∉ cs ∧ '\r' ∉ cs := by
  rw [readLines, split_length, Nat.add_eq_right, List.count_eq_zero, feed_mem_unifyLineEnds, not_or]

/-- A text that is one line is read as it is. -/
theorem readLines_of_length {cs : List Char} (single : (readLines cs).length = 1) : readLines cs = [cs] := by
  obtain ⟨feeds, returns⟩ := (length_readLines cs).mp single
  rw [readLines, unifyLineEnds_of_no_return cs returns, split_of_not_mem '\n' cs feeds]

/-- A line feed ends a line that does not end in a carriage return. -/
theorem unifyLineEnds_line {line : List Char} (ends : line.getLast? ≠ some '\r') (rest : List Char) :
    unifyLineEnds (line ++ '\n' :: rest) = unifyLineEnds line ++ '\n' :: unifyLineEnds rest := by
  fun_induction unifyLineEnds line with
  | case1 => simp [unifyLineEnds]
  | case2 line inductionHypothesis =>
    have others : line.getLast? ≠ some '\r' := by
      cases line with
      | nil => simp
      | cons d line => simpa using ends
    rw [List.cons_append, List.cons_append, unifyLineEnds, inductionHypothesis others, List.cons_append]
  | case3 c line alone inductionHypothesis =>
    cases line with
    | nil =>
      have other : c ≠ '\r' := by simpa using ends
      simp [unifyLineEnds, other]
    | cons d line =>
      have others : (d :: line).getLast? ≠ some '\r' := by simpa using ends
      have apart : ∀ more, c = '\r' → (d :: line) ++ '\n' :: rest = '\n' :: more → False := by
        intro more isReturn same
        obtain rfl := (List.cons.inj same).1
        exact alone line isReturn rfl
      rw [List.cons_append, unifyLineEnds.eq_3 _ _ apart, inductionHypothesis others, List.cons_append]

/-- The lines of a text that a line feed cuts are those of its parts. -/
theorem readLines_line {line : List Char} (ends : line.getLast? ≠ some '\r') (rest : List Char) :
    readLines (line ++ '\n' :: rest) = readLines line ++ readLines rest := by
  rw [readLines, unifyLineEnds_line ends, split_both, ← readLines, ← readLines]

end Lines

section Bars

/-- Cut a line at each bar that no backslash escapes. A backslash that is escaped itself escapes nothing. -/
def cutBars (escaped : Bool) : List Char → List (List Char)
  | [] => [[]]
  | c :: rest =>
    if c == '|' && !escaped then [] :: cutBars false rest
    else extendFirst c (cutBars (c == '\\' && !escaped) rest)

variable {escaped : Bool}

/-- A line has a piece. -/
theorem cutBars_ne_nil (cs : List Char) : cutBars escaped cs ≠ [] := by
  cases cs with
  | nil => simp [cutBars]
  | cons c rest =>
    rw [cutBars]
    split
    · simp
    · cases cutBars (c == '\\' && !escaped) rest <;> simp [extendFirst]

/-- A line that is not cut is its only piece. -/
theorem cutBars_of_length {cs : List Char} (whole : (cutBars escaped cs).length = 1) : cutBars escaped cs = [cs] := by
  induction cs generalizing escaped with
  | nil => rfl
  | cons c rest inductionHypothesis =>
    rw [cutBars] at whole ⊢
    split at whole
    case isTrue =>
      have more : 0 < (cutBars false rest).length := List.length_pos_iff.mpr (cutBars_ne_nil rest)
      rw [List.length_cons] at whole
      omega
    case isFalse bar =>
      rw [length_extendFirst c (cutBars_ne_nil rest)] at whole
      rw [if_neg bar, inductionHypothesis whole, extendFirst]

/-- A space before a bar keeps it from being escaped, so it cuts the line there. -/
theorem cutBars_cell (cell rest : List Char) :
    cutBars escaped (cell ++ ' ' :: '|' :: rest) = cutBars escaped (cell ++ [' ']) ++ cutBars false rest := by
  induction cell generalizing escaped with
  | nil => simp [cutBars, extendFirst]
  | cons c cell inductionHypothesis =>
    rw [List.cons_append, List.cons_append, cutBars, cutBars]
    split
    case isTrue => rw [inductionHypothesis, List.cons_append]
    case isFalse => rw [inductionHypothesis, extendFirst_append c (cutBars_ne_nil _)]

/-- What holds neither bars nor backslashes cuts nothing where it stands in front. -/
theorem length_cutBars_front {front : List Char} (bars : '|' ∉ front) (slashes : '\\' ∉ front) (cs : List Char) :
    (cutBars false (front ++ cs)).length = (cutBars false cs).length := by
  induction front with
  | nil => rfl
  | cons c front inductionHypothesis =>
    simp only [List.mem_cons, not_or] at bars slashes
    have bar : (c == '|') = false := by simpa using Ne.symm bars.1
    have slash : (c == '\\') = false := by simpa using Ne.symm slashes.1
    simp [cutBars, bar, slash, length_extendFirst c (cutBars_ne_nil _), inductionHypothesis bars.2 slashes.2]

/-- What holds no bars cuts nothing where it stands behind. -/
theorem length_cutBars_back {back : List Char} (bars : '|' ∉ back) (cs : List Char) :
    (cutBars escaped (cs ++ back)).length = (cutBars escaped cs).length := by
  have plain (escaped : Bool) : (cutBars escaped back).length = 1 := by
    induction back generalizing escaped with
    | nil => rfl
    | cons c back inductionHypothesis =>
      simp only [List.mem_cons, not_or] at bars
      have bar : (c == '|') = false := by simpa using Ne.symm bars.1
      simp [cutBars, bar, length_extendFirst c (cutBars_ne_nil _), inductionHypothesis bars.2]
  induction cs generalizing escaped with
  | nil => exact plain escaped
  | cons c cs inductionHypothesis =>
    rw [List.cons_append, cutBars, cutBars]
    split
    case isTrue => rw [List.length_cons, List.length_cons, inductionHypothesis]
    case isFalse =>
      rw [length_extendFirst c (cutBars_ne_nil _), length_extendFirst c (cutBars_ne_nil _), inductionHypothesis]

end Bars

section Unbroken

/-- A text that may stand in a cell: no line end and no bar that is not escaped breaks it. -/
structure Unbroken (cs : List Char) : Prop where
  feeds : '\n' ∉ cs
  returns : '\r' ∉ cs
  bars : cutBars false cs = [cs]

/-- The characters that a table is made of: bars, what escapes them, and line ends. -/
def tableMarks : List Char := ['|', '\\', '\n', '\r']

/-- A text without the characters of a table. -/
def TablePlain (cs : List Char) : Prop := ∀ c ∈ tableMarks, c ∉ cs

instance (cs : List Char) : Decidable (TablePlain cs) := List.decidableBAll (fun c => c ∉ cs) tableMarks

/-- Plain texts make a plain text. -/
theorem tablePlain_append {as bs : List Char} (plain : TablePlain as) (plainBack : TablePlain bs) :
    TablePlain (as ++ bs) := by
  intro c mark
  simpa using ⟨plain c mark, plainBack c mark⟩

/-- A text between plain ones is broken only by itself. -/
theorem unbroken_enclosed {front back : List Char} (plain : TablePlain front) (plainBack : TablePlain back)
    (cs : List Char) : Unbroken (front ++ cs ++ back) ↔ Unbroken cs := by
  have pieces : (cutBars false (front ++ cs ++ back)).length = (cutBars false cs).length := by
    rw [length_cutBars_back (plainBack '|' (by decide)),
      length_cutBars_front (plain '|' (by decide)) (plain '\\' (by decide))]
  have held {c : Char} (mark : c ∈ tableMarks) : c ∉ front ++ cs ++ back ↔ c ∉ cs := by
    simp [plain c mark, plainBack c mark]
  constructor
  · rintro ⟨feeds, returns, bars⟩
    refine ⟨(held (by decide)).mp feeds, (held (by decide)).mp returns, cutBars_of_length ?_⟩
    rw [← pieces, bars, List.length_singleton]
  · rintro ⟨feeds, returns, bars⟩
    refine ⟨(held (by decide)).mpr feeds, (held (by decide)).mpr returns, cutBars_of_length ?_⟩
    rw [pieces, bars, List.length_singleton]

/-- A plain text is unbroken. -/
theorem unbroken_of_tablePlain {cs : List Char} (plain : TablePlain cs) : Unbroken cs := by
  have nothing : TablePlain [] := by decide
  have empty : Unbroken [] := ⟨List.not_mem_nil, List.not_mem_nil, rfl⟩
  simpa using (unbroken_enclosed plain nothing []).mpr empty

end Unbroken

end Text

end ComLayout
