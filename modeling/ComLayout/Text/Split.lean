/-!
# Splitting at a separator

A text is cut at each occurrence of a separator. Joining the pieces with the separator gives the text
back.
-/

namespace ComLayout.Text

/-- Put a character at the front of the first piece. -/
def extendFirst (c : Char) : List (List Char) → List (List Char)
  | [] => [[c]]
  | piece :: more => (c :: piece) :: more

/-- Cut a text at each separator; the pieces are one more than the separators. -/
def split (separator : Char) : List Char → List (List Char)
  | [] => [[]]
  | c :: rest =>
    if c == separator then [] :: split separator rest else extendFirst c (split separator rest)

/-- A character that goes to the first piece makes no further one. -/
theorem length_extendFirst (c : Char) {pieces : List (List Char)} (some_ : pieces ≠ []) :
    (extendFirst c pieces).length = pieces.length := by
  obtain ⟨first, others, rfl⟩ := List.exists_cons_of_ne_nil some_
  rfl

/-- A character goes to the first piece, however many follow. -/
theorem extendFirst_append (c : Char) {pieces : List (List Char)} (some_ : pieces ≠ []) (more : List (List Char)) :
    extendFirst c (pieces ++ more) = extendFirst c pieces ++ more := by
  obtain ⟨first, others, rfl⟩ := List.exists_cons_of_ne_nil some_
  rfl

/-- The pieces are one more than the separators. -/
theorem split_length (separator : Char) (cs : List Char) :
    (split separator cs).length = cs.count separator + 1 := by
  induction cs with
  | nil => rfl
  | cons c rest inductionHypothesis =>
    by_cases cut : c = separator
    · simp [split, cut, inductionHypothesis]
    · have some_ : split separator rest ≠ [] := List.ne_nil_of_length_eq_add_one inductionHypothesis
      simp [split, cut, length_extendFirst c some_, inductionHypothesis]

/-- A text has a piece. -/
theorem split_ne_nil (separator : Char) (cs : List Char) : split separator cs ≠ [] :=
  List.ne_nil_of_length_eq_add_one (split_length separator cs)

/-- No piece holds a separator. -/
theorem separator_not_mem_split (separator : Char) (cs : List Char) :
    ∀ piece ∈ split separator cs, separator ∉ piece := by
  induction cs with
  | nil => simp [split]
  | cons c rest inductionHypothesis =>
    by_cases cut : c = separator
    · simpa [split, cut] using inductionHypothesis
    · have other : separator ≠ c := fun same => cut same.symm
      cases found : split separator rest with
      | nil => simp [split, cut, found, extendFirst, other]
      | cons piece more =>
        rw [found] at inductionHypothesis
        simp only [List.mem_cons, forall_eq_or_imp] at inductionHypothesis
        simpa [split, cut, found, extendFirst, other] using inductionHypothesis

/-- A text without separators is one piece. -/
theorem split_of_not_mem (separator : Char) (cs : List Char) (whole : separator ∉ cs) :
    split separator cs = [cs] := by
  induction cs with
  | nil => rfl
  | cons c rest inductionHypothesis =>
    simp only [List.mem_cons, not_or] at whole
    have other : c ≠ separator := fun same => whole.1 same.symm
    simp [split, other, inductionHypothesis whole.2, extendFirst]

/-- The pieces of a text that a separator cuts in two are those of both parts. -/
theorem split_both (separator : Char) (front rest : List Char) :
    split separator (front ++ separator :: rest) = split separator front ++ split separator rest := by
  induction front with
  | nil => simp [split]
  | cons c more inductionHypothesis =>
    by_cases cut : c = separator
    · simp [split, cut, inductionHypothesis]
    · simp [split, cut, inductionHypothesis, extendFirst_append c (split_ne_nil separator more)]

/-- The pieces with separators between them are the text. -/
theorem intercalate_split (separator : Char) (cs : List Char) :
    [separator].intercalate (split separator cs) = cs := by
  induction cs with
  | nil => simp [split]
  | cons c rest inductionHypothesis =>
    obtain ⟨piece, more, found⟩ := List.exists_cons_of_ne_nil (split_ne_nil separator rest)
    rw [found] at inductionHypothesis
    by_cases cut : c = separator
    · simp [split, cut, found, List.intercalate_cons_cons, inductionHypothesis]
    · have extended : [separator].intercalate ((c :: piece) :: more) = c :: [separator].intercalate (piece :: more) := by
        cases more <;> simp [List.intercalate_cons_cons]
      simp [split, cut, found, extendFirst, extended, inductionHypothesis]

/-- What stands before the first separator is the first piece. -/
theorem split_append (separator : Char) (front rest : List Char) (whole : separator ∉ front) :
    split separator (front ++ separator :: rest) = front :: split separator rest := by
  rw [split_both, split_of_not_mem separator front whole, List.singleton_append]

/-- Pieces without separators that are joined by them are cut apart again. -/
theorem split_intercalate (separator : Char) (first : List Char) (more : List (List Char))
    (whole : ∀ piece ∈ first :: more, separator ∉ piece) :
    split separator ([separator].intercalate (first :: more)) = first :: more := by
  induction more generalizing first with
  | nil => simpa using split_of_not_mem separator first (whole first (by simp))
  | cons second rest inductionHypothesis =>
    have later : ∀ piece ∈ second :: rest, separator ∉ piece :=
      fun piece member => whole piece (List.mem_cons_of_mem first member)
    rw [List.intercalate_cons_cons, List.append_assoc, List.singleton_append,
      split_append separator first _ (whole first (by simp)), inductionHypothesis second later]

end ComLayout.Text
