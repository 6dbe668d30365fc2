/-!
# Line ends

A line ends with a line feed, a carriage return or both in this order. `unifyLineEnds` writes every
one of them as a line feed.
-/

namespace ComLayout.Text

/-- Write every line end as a single line feed. -/
def unifyLineEnds : List Char → List Char
  | [] => []
  | '\r' :: '\n' :: rest => '\n' :: unifyLineEnds rest
  | c :: rest => (if c == '\r' then '\n' else c) :: unifyLineEnds rest

/-- Write the pairs of carriage return and line feed as a line feed; a lone carriage return stays. -/
def joinLinePairs : List Char → List Char
  | [] => []
  | '\r' :: '\n' :: rest => '\n' :: joinLinePairs rest
  | c :: rest => c :: joinLinePairs rest

/-- The number of line feeds in a text. -/
def lineFeeds (cs : List Char) : Nat := cs.count '\n'

/-- A text without carriage returns stays as it is. -/
theorem unifyLineEnds_of_no_return (cs : List Char) (plain : '\r' ∉ cs) : unifyLineEnds cs = cs := by
  fun_induction unifyLineEnds cs with
  | case1 => rfl
  | case2 rest => simp at plain
  | case3 c rest _ inductionHypothesis =>
    simp only [List.mem_cons, not_or] at plain
    have other : c ≠ '\r' := fun same => plain.1 same.symm
    simp [other, inductionHypothesis plain.2]

end ComLayout.Text
