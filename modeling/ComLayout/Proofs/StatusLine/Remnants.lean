import ComLayout.Proofs.Entries
import ComLayout.StatusLine

/-!
# What a status line leaves on a terminal

All handles share one row of the terminal, and each call blanks only what is left of the text of its own
handle. Still nothing is left behind: what stands on the row lies within the text of one of the handles
that are shown. Where a handle is shown over the longer text of another, the rest of that text stays on the
row until the other handle is shown or cleared.
-/

namespace ComLayout

/-- A row of a terminal: what stands in its cells, and the cell that is written next. -/
structure TerminalRow where
  cells : Nat → Char
  column : Nat

namespace TerminalRow

/-- A row on which nothing stands. -/
def blank : TerminalRow := ⟨fun _ => ' ', 0⟩

/-- Write a character: a return leads to the first cell, every other character overwrites a cell. -/
def put (row : TerminalRow) (c : Char) : TerminalRow :=
  if c = '\r' then { row with column := 0 }
  else ⟨fun i => if i = row.column then c else row.cells i, row.column + 1⟩

/-- Write several characters. -/
def write (row : TerminalRow) (cs : List Char) : TerminalRow := cs.foldl put row

variable (row : TerminalRow)

/-- Writing one text after the other. -/
theorem write_append (first second : List Char) :
    row.write (first ++ second) = (row.write first).write second := List.foldl_append

/-- A text without returns overwrites the cells from where it begins, and no others. -/
theorem cells_write {cs : List Char} (plain : '\r' ∉ cs) (i : Nat) :
    (row.write cs).cells i =
      if row.column ≤ i then cs.getD (i - row.column) (row.cells i) else row.cells i := by
  induction cs generalizing row with
  | nil => simp [write]
  | cons c rest inductionHypothesis =>
    simp only [List.mem_cons, not_or] at plain
    have first : row.put c = ⟨fun i => if i = row.column then c else row.cells i, row.column + 1⟩ :=
      if_neg (Ne.symm plain.1)
    have step : row.write (c :: rest) = (row.put c).write rest := rfl
    rw [step, inductionHypothesis (row.put c) plain.2, first]
    rcases Nat.lt_trichotomy i row.column with before | here | behind
    · simp [Nat.not_le.mpr before, Nat.not_le.mpr (Nat.lt_succ_of_lt before), Nat.ne_of_lt before]
    · rw [here, if_neg (Nat.not_succ_le_self row.column)]
      simp
    · obtain ⟨k, rfl⟩ := Nat.exists_eq_add_of_lt behind
      have shift : row.column + k + 1 - row.column = k + 1 := by omega
      have passed : row.column + k + 1 - (row.column + 1) = k := by omega
      have reached : row.column + 1 ≤ row.column + k + 1 := by omega
      have distinct : row.column + k + 1 ≠ row.column := by omega
      simp [shift, passed, reached, distinct, Nat.le_of_lt behind]

/-- A text that is written from the first cell on. -/
theorem cells_write_return {cs : List Char} (plain : '\r' ∉ cs) (i : Nat) :
    (row.write ('\r' :: cs)).cells i = cs.getD i (row.cells i) := by
  have returned : row.write ('\r' :: cs) = ({ row with column := 0 } : TerminalRow).write cs := rfl
  rw [returned, cells_write _ plain]
  simp

end TerminalRow

/-- A call whose handle and text hold no return. -/
def StatusCall.IsPlain : StatusCall → Prop
  | .show_ handle text => '\r' ∉ handle.toList ∧ '\r' ∉ text.toList
  | .clear _ => True

/-- A handle that is cleared after it was last shown, or never shown. -/
def Cleared (calls : List StatusCall) (handle : String) : Prop :=
  ∀ before text after, calls = before ++ .show_ handle text :: after → .clear handle ∈ after

/-- Without calls every handle is cleared. -/
theorem cleared_nil (handle : String) : Cleared [] handle := by
  intro before text after same
  simp at same

/-- A handle that a first call shows has to be cleared later on. -/
theorem cleared_cons {call : StatusCall} {rest : List StatusCall} {handle : String} :
    Cleared (call :: rest) handle ↔
      (∀ text, call = .show_ handle text → .clear handle ∈ rest) ∧ Cleared rest handle := by
  constructor
  · intro cleared
    refine ⟨fun text same => cleared [] text rest (by rw [same]; rfl), fun before text after same => ?_⟩
    exact cleared (call :: before) text after (by rw [same, List.cons_append])
  · rintro ⟨first, later⟩ before text after same
    cases before with
    | nil =>
      obtain ⟨rfl, rfl⟩ := List.cons.inj same
      exact first text rfl
    | cons _ more =>
      obtain ⟨-, rfl⟩ := List.cons.inj same
      exact later more text after rfl

namespace StatusLine

section Call

variable (line : StatusLine)

/-- Only the handle that is forgotten has no width any more. -/
theorem widthOf_forget (gone handle : String) :
    (line.forget gone).widthOf handle = if handle = gone then 0 else line.widthOf handle := by
  rw [widthOf, forget, lookup_without]
  split <;> rfl

/-- Only the handle that is remembered has another width. -/
theorem widthOf_remember (shown handle : String) (width : Nat) :
    (line.remember shown width).widthOf handle =
      if handle = shown then width else line.widthOf handle := by
  rw [widthOf, remember, List.lookup_cons]
  split
  next same => simp [eq_of_beq same]
  next other =>
    have apart : handle ≠ shown := fun same => by simp [same] at other
    rw [if_neg apart, ← widthOf, widthOf_forget, if_neg apart]

/-- The largest width of a text on the line, zero if there is none. -/
def largestWidth : Nat := (line.widths.map Prod.snd).foldr max 0

/-- No text is wider than the largest width. -/
theorem widthOf_le_largestWidth (handle : String) : line.widthOf handle ≤ line.largestWidth := by
  unfold widthOf largestWidth
  induction line.widths with
  | nil => exact Nat.le_refl 0
  | cons entry rest inductionHypothesis =>
    rw [List.lookup_cons, List.map_cons, List.foldr_cons]
    split
    · exact Nat.le_max_left _ _
    · exact Nat.le_trans inductionHypothesis (Nat.le_max_right _ _)

/-- A call leaves the line enabled or not, as it was. -/
theorem enabled_call (call : StatusCall) : (line.call call).1.enabled = line.enabled := by
  cases call with
  | show_ handle text =>
    simp only [StatusLine.call]
    split <;> rfl
  | clear handle => rfl

/-- Calls leave the line enabled or not, as it was. -/
theorem enabled_calls (calls : List StatusCall) : (line.calls calls).1.enabled = line.enabled := by
  induction calls generalizing line with
  | nil => rfl
  | cons call rest inductionHypothesis =>
    exact (inductionHypothesis (line.call call).1).trans (enabled_call line call)

/-- Calls are made one after the other. -/
theorem calls_append (first second : List StatusCall) :
    line.calls (first ++ second) =
      (((line.calls first).1.calls second).1,
        (line.calls first).2 ++ ((line.calls first).1.calls second).2) := by
  induction first generalizing line with
  | nil => rfl
  | cons call rest inductionHypothesis => simp [calls, inductionHypothesis]

end Call

/-- What stands on a row lies within the text of a handle. -/
def Confines (line : StatusLine) (row : TerminalRow) : Prop :=
  ∀ i, row.cells i ≠ ' ' → ∃ handle, i < line.widthOf handle

/-- What stands on a row behind the text of a handle lies within the text of another. -/
theorem exists_other_of_filled {line : StatusLine} {row : TerminalRow} (confined : Confines line row)
    {handle : String} {i : Nat} (filled : (if i < line.widthOf handle then ' ' else row.cells i) ≠ ' ') :
    ∃ other, other ≠ handle ∧ i < line.widthOf other := by
  split at filled
  next => exact absurd rfl filled
  next behind =>
    obtain ⟨other, inside⟩ := confined i filled
    refine ⟨other, ?_, inside⟩
    rintro rfl
    exact behind inside

section Enabled

variable {line : StatusLine} (enabled : line.enabled = true) (row : TerminalRow)
include enabled

/-- Showing a text writes it over the cells from the first on, and blanks over what is left of the handle's
previous text. -/
theorem cells_show {handle text : String} (plain : (StatusCall.show_ handle text).IsPlain) (i : Nat) :
    (row.write (line.call (.show_ handle text)).2).cells i =
      (caption handle text).getD i (if i < line.widthOf handle then ' ' else row.cells i) := by
  have returnless : '\r' ∉ caption handle text ++ blanks (line.widthOf handle - (caption handle text).length) := by
    simp [caption, blanks, plain.1, plain.2]
  have written : (line.call (.show_ handle text)).2 =
      '\r' :: (caption handle text ++ blanks (line.widthOf handle - (caption handle text).length)) := by
    simp [call, enabled]
  rw [written, TerminalRow.cells_write_return _ returnless, List.getD_eq_getElem?_getD,
    List.getD_eq_getElem?_getD]
  rcases Nat.lt_or_ge i (caption handle text).length with within | behind
  · rw [List.getElem?_append_left within, List.getElem?_eq_getElem within]
    rfl
  · rw [List.getElem?_append_right behind, List.getElem?_eq_none behind, blanks, List.getElem?_replicate]
    have padded : i - (caption handle text).length < line.widthOf handle - (caption handle text).length ↔
        i < line.widthOf handle := by omega
    simp only [padded]
    split <;> rfl

/-- Clearing a handle blanks its text. -/
theorem cells_clear (handle : String) (i : Nat) :
    (row.write (line.call (.clear handle)).2).cells i =
      if i < line.widthOf handle then ' ' else row.cells i := by
  cases width : line.widthOf handle with
  | zero => simp [call, width, TerminalRow.write]
  | succ more =>
    have written : (line.call (.clear handle)).2 = '\r' :: blanks (more + 1) ++ ['\r'] := by
      simp [call, enabled, width]
    have returnless : '\r' ∉ blanks (more + 1) := by simp [blanks]
    have returned : ∀ other : TerminalRow, (other.write ['\r']).cells = other.cells := fun _ => rfl
    rw [written, TerminalRow.write_append, returned, TerminalRow.cells_write_return _ returnless, blanks,
      List.getD_eq_getElem?_getD, List.getElem?_replicate]
    split <;> rfl

variable {row}

/-- A call keeps what stands on the row within the text of a handle: what it leaves of its own handle's text is
blanked, and the texts of the other handles stay. -/
theorem confines_call (confined : Confines line row) {call : StatusCall} (plain : call.IsPlain) :
    Confines (line.call call).1 (row.write (line.call call).2) := by
  intro i filled
  cases call with
  | show_ handle text =>
    rw [cells_show enabled row plain] at filled
    have widths (other : String) : (line.call (.show_ handle text)).1.widthOf other =
        if other = handle then (caption handle text).length else line.widthOf other := by
      simp [StatusLine.call, enabled, widthOf_remember]
    rcases Nat.lt_or_ge i (caption handle text).length with within | behind
    · exact ⟨handle, by rwa [widths, if_pos rfl]⟩
    · rw [List.getD_eq_getElem?_getD, List.getElem?_eq_none behind, Option.getD_none] at filled
      obtain ⟨other, apart, inside⟩ := exists_other_of_filled confined filled
      exact ⟨other, by rwa [widths, if_neg apart]⟩
  | clear handle =>
    rw [cells_clear enabled] at filled
    obtain ⟨other, apart, inside⟩ := exists_other_of_filled confined filled
    exact ⟨other, by rwa [StatusLine.call, widthOf_forget, if_neg apart]⟩

/-- Calls keep what stands on the row within the texts of the handles. -/
theorem confines_calls (confined : Confines line row) {calls : List StatusCall}
    (plain : ∀ call ∈ calls, call.IsPlain) :
    Confines (line.calls calls).1 (row.write (line.calls calls).2) := by
  induction calls generalizing line row with
  | nil => exact confined
  | cons call rest inductionHypothesis =>
    simp only [StatusLine.calls, TerminalRow.write_append]
    exact inductionHypothesis ((enabled_call line call).trans enabled)
      (confines_call enabled confined (plain call List.mem_cons_self))
      fun later member => plain later (List.mem_cons_of_mem call member)

/-- A handle that is cleared in the end has no width then. -/
theorem widthOf_calls_of_cleared {calls : List StatusCall} {handle : String} (cleared : Cleared calls handle)
    (unshown : line.widthOf handle = 0 ∨ .clear handle ∈ calls) :
    (line.calls calls).1.widthOf handle = 0 := by
  induction calls generalizing line with
  | nil => exact unshown.resolve_right List.not_mem_nil
  | cons call rest inductionHypothesis =>
    obtain ⟨first, later⟩ := cleared_cons.mp cleared
    apply inductionHypothesis ((enabled_call line call).trans enabled) later
    cases call with
    | show_ shown text =>
      by_cases same : handle = shown
      · subst same
        exact .inr (first text rfl)
      · rcases unshown with none | later
        · left
          simpa [StatusLine.call, enabled, widthOf_remember, same] using none
        · right
          simpa using later
    | clear gone =>
      by_cases same : handle = gone
      · left
        rw [StatusLine.call, widthOf_forget, if_pos same]
      · rcases unshown with none | later
        · left
          rwa [StatusLine.call, widthOf_forget, if_neg same]
        · right
          simpa [same] using later

end Enabled

/-- The row of a terminal after calls on a line on which nothing was shown before. -/
def rowAfter (calls : List StatusCall) : TerminalRow :=
  TerminalRow.blank.write ((new true).calls calls).2

/-- A status line leaves no remnants on its row.

After any calls whatever stands on the row lies left of the largest width that is recorded. So the row is blank when
each handle that was shown is cleared. What a handle shows is all that stands on the row if each other handle is
cleared; this is so in particular if there is no other.

Each call goes back to the beginning of the row and overwrites at least the cells that its handle had taken up, with
text or with blanks. So every cell that is not blank lies within the width of some handle: this holds of the blank
row, each call keeps it, and by induction it holds after all of them. The width of a handle that is cleared is
nothing. -/
theorem status_line_leaves_no_remnants (calls : List StatusCall) (plain : ∀ call ∈ calls, call.IsPlain) :
    (∀ i, (rowAfter calls).cells i ≠ ' ' → i < ((new true).calls calls).1.largestWidth) ∧
      ((∀ handle, Cleared calls handle) → ∀ i, (rowAfter calls).cells i = ' ') ∧
      ∀ before handle text, calls = before ++ [.show_ handle text] →
        (∀ other, other ≠ handle → Cleared before other) →
        ∀ i, (rowAfter calls).cells i = (caption handle text).getD i ' ' := by
  have fresh : Confines (new true) TerminalRow.blank := fun i filled => absurd rfl filled
  have confined : Confines ((new true).calls calls).1 (rowAfter calls) := confines_calls rfl fresh plain
  refine ⟨?_, ?_, ?_⟩
  · intro i filled
    obtain ⟨handle, inside⟩ := confined i filled
    exact Nat.lt_of_lt_of_le inside (widthOf_le_largestWidth _ handle)
  · intro cleared i
    refine Decidable.byContradiction fun filled => ?_
    obtain ⟨handle, inside⟩ := confined i filled
    rw [widthOf_calls_of_cleared rfl (cleared handle) (.inl rfl)] at inside
    exact Nat.not_lt_zero i inside
  · rintro before handle text rfl cleared i
    have plainBefore : ∀ call ∈ before, call.IsPlain :=
      fun call member => plain call (List.mem_append_left _ member)
    have confinedBefore : Confines ((new true).calls before).1 (rowAfter before) :=
      confines_calls rfl fresh plainBefore
    have enabled : ((new true).calls before).1.enabled = true := enabled_calls _ before
    have written : rowAfter (before ++ [.show_ handle text]) =
        (rowAfter before).write (((new true).calls before).1.call (.show_ handle text)).2 := by
      simp [rowAfter, calls_append, StatusLine.calls, TerminalRow.write_append]
    have blanked : (if i < ((new true).calls before).1.widthOf handle then ' ' else (rowAfter before).cells i) =
        ' ' := by
      refine Decidable.byContradiction fun filled => ?_
      obtain ⟨other, apart, inside⟩ := exists_other_of_filled confinedBefore filled
      rw [widthOf_calls_of_cleared rfl (cleared other apart) (.inl rfl)] at inside
      exact Nat.not_lt_zero i inside
    rw [written, cells_show enabled _ (plain _ (by simp)), blanked]

/-- Two handles that are shown by turns and cleared, the one that was shown first at first, leave nothing; a
handle that is shown twice leaves its second text. -/
theorem scan_leaves_no_remnants :
    (∀ i, (rowAfter [.show_ "scan" "include/long_name.h", .show_ "write" "a.md", .clear "scan",
      .clear "write"]).cells i = ' ') ∧
      ∀ i, (rowAfter [.show_ "scan" "include/long_name.h", .show_ "scan" "a.h"]).cells i =
        (caption "scan" "a.h").getD i ' ' := by
  constructor
  · refine (status_line_leaves_no_remnants _ ?plain).2.1 ?cleared
    case plain => simp [StatusCall.IsPlain]
    case cleared => simp +contextual [cleared_cons, cleared_nil, eq_comm]
  · refine (status_line_leaves_no_remnants _ ?plain).2.2 [_] "scan" "a.h" rfl ?cleared
    case plain => simp [StatusCall.IsPlain]
    case cleared =>
      intro other apart
      simp [cleared_cons, cleared_nil, Ne.symm apart]

end StatusLine

end ComLayout
