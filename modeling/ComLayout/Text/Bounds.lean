/-!
# Sets of code points by their bounds

A set of code points is given by an ascending list of bounds: the first bound opens a span, the next
one closes it just before itself, and so on; a last bound without partner opens a span that never
closes. Tables of character properties are written in this form.
-/

namespace ComLayout.Text

/-- Membership in the union of the half-open spans that the bounds delimit. The bounds ascend, so
the search stops at the first span that begins beyond the code point. -/
def within : List Nat → Nat → Bool
  | [], _ => false
  | [low], n => low ≤ n
  | low :: high :: rest, n => low ≤ n && (n < high || within rest n)

/-- Every bound lies beyond the one before it. -/
def ascending : List Nat → Bool
  | [] => true
  | [_] => true
  | low :: high :: rest => low < high && ascending (high :: rest)

end ComLayout.Text
