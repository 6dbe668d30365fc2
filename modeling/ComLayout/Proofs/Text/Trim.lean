import ComLayout.Text.Blank
import Mathlib.Data.List.TakeWhile

/-!
# Trimming white space

Trimming cuts a text into white space, what is left, and white space. More white space at its ends makes no
difference.
-/

namespace ComLayout.Text

section Ends

variable {p : Char → Bool} {cs : List Char}

/-- What does not meet the condition is not dropped from the front. -/
theorem mem_dropWhile {c : Char} (held : c ∈ cs) (kept : p c = false) : c ∈ cs.dropWhile p := by
  rw [← List.takeWhile_append_dropWhile (p := p) (l := cs), List.mem_append] at held
  refine held.resolve_left fun dropped => ?_
  rw [List.mem_takeWhile_imp dropped] at kept
  exact Bool.noConfusion kept

/-- Nothing is dropped from the front if the first character does not meet the condition. -/
theorem dropWhile_of_head? (kept : cs.head?.any p = false) : cs.dropWhile p = cs := by
  cases cs with
  | nil => rfl
  | cons c rest => exact List.dropWhile_cons_of_neg (Bool.eq_false_iff.mp kept)

/-- Nothing is dropped from the end if the last character does not meet the condition. -/
theorem dropTail_of_getLast? (kept : cs.getLast?.any p = false) : dropTail p cs = cs := by
  rw [dropTail, dropWhile_of_head? (by rwa [List.head?_reverse]), List.reverse_reverse]

end Ends

/-- Trimming leaves out characters and brings in none. -/
theorem mem_of_mem_trim {cs : List Char} {c : Char} (held : c ∈ trim cs) : c ∈ cs := by
  have front : c ∈ cs.dropWhile isBlank :=
    List.mem_reverse.mp ((List.dropWhile_suffix isBlank).subset (List.mem_reverse.mp held))
  exact (List.dropWhile_suffix isBlank).subset front

/-- A text is what trimming leaves of it between two runs of white space. -/
theorem exists_trim_split (cs : List Char) : ∃ before behind, cs = before ++ trim cs ++ behind ∧
    (∀ c ∈ before, isBlank c = true) ∧ ∀ c ∈ behind, isBlank c = true := by
  have tail : cs.dropWhile isBlank =
      trim cs ++ ((cs.dropWhile isBlank).reverse.takeWhile isBlank).reverse := by
    rw [trim, dropTail, ← List.reverse_append, List.takeWhile_append_dropWhile, List.reverse_reverse]
  refine ⟨cs.takeWhile isBlank, ((cs.dropWhile isBlank).reverse.takeWhile isBlank).reverse, ?_, ?_, ?_⟩
  · rw [List.append_assoc, ← tail, List.takeWhile_append_dropWhile]
  · exact fun c held => List.mem_takeWhile_imp held
  · exact fun c held => List.mem_takeWhile_imp (List.mem_reverse.mp held)

/-- White space around a text is trimmed away. -/
theorem trim_of_blanks (before cs behind : List Char) (blank : ∀ c ∈ before, isBlank c = true)
    (blankBehind : ∀ c ∈ behind, isBlank c = true) : trim (before ++ cs ++ behind) = trim cs := by
  have nothing : behind.dropWhile isBlank = [] := List.dropWhile_eq_nil_iff.mpr blankBehind
  have reversed : ∀ c ∈ behind.reverse, isBlank c = true :=
    fun c held => blankBehind c (List.mem_reverse.mp held)
  rw [trim, trim, List.append_assoc, List.dropWhile_append_of_pos blank, List.dropWhile_append, nothing]
  by_cases empty : cs.dropWhile isBlank = []
  · simp [empty]
  · rw [if_neg (by simpa using empty), dropTail, List.reverse_append, List.dropWhile_append_of_pos reversed,
      dropTail]

/-- A text without white space at its ends is left as it is. -/
theorem trim_of_solid_ends {cs : List Char} (front : cs.head?.any isBlank = false)
    (back : cs.getLast?.any isBlank = false) : trim cs = cs := by
  rw [trim, dropWhile_of_head? front, dropTail_of_getLast? back]

/-- Nothing is left of white space. -/
theorem trim_eq_nil {cs : List Char} (blank : ∀ c ∈ cs, isBlank c = true) : trim cs = [] := by
  rw [trim, List.dropWhile_eq_nil_iff.mpr blank]
  rfl

/-- A text is what is left when white space is removed from its end, and white space. -/
theorem exists_trimEnd_append (cs : List Char) :
    ∃ blanks, cs = trimEnd cs ++ blanks ∧ ∀ c ∈ blanks, isBlank c = true := by
  refine ⟨(cs.reverse.takeWhile isBlank).reverse, ?_, fun c held => ?_⟩
  · rw [trimEnd, dropTail, ← List.reverse_append, List.takeWhile_append_dropWhile, List.reverse_reverse]
  · exact List.mem_takeWhile_imp (List.mem_reverse.mp held)

/-- No white space is left at the end. -/
theorem isBlank_getLast?_trimEnd {cs : List Char} {c : Char} (last : (trimEnd cs).getLast? = some c) :
    isBlank c = false := by
  rw [trimEnd, dropTail, List.getLast?_reverse] at last
  have stops := List.head?_dropWhile_not isBlank cs.reverse
  rw [last] at stops
  exact stops

end ComLayout.Text
