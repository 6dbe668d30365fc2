import ComLayout.Text.Bounds

/-!
# White space

White space is what Unicode 14 calls so, together with the four information separators U+001C to
U+001F. The zero width space and the byte order mark are not white space. `trim` removes it from
both ends of a text and nothing else.
-/

namespace ComLayout.Text

/-- Bounds of the white space characters. -/
def blankBounds : List Nat :=
  [0x9, 0xe, 0x1c, 0x21, 0x85, 0x86, 0xa0, 0xa1, 0x1680, 0x1681, 0x2000, 0x200b, 0x2028, 0x202a,
   0x202f, 0x2030, 0x205f, 0x2060, 0x3000, 0x3001]

/-- White space of any kind, line ends included. -/
def isBlank (c : Char) : Bool := within blankBounds c.toNat

/-- Space and tab, the blanks that separate the words of one line. -/
def isGap (c : Char) : Bool := c == ' ' || c == '\t'

/-- The six ASCII blanks: tab, line feed, vertical tab, form feed, carriage return and space. -/
def isAsciiBlank (c : Char) : Bool := c == ' ' || (9 ≤ c.toNat && c.toNat ≤ 13)

/-- Drop the last elements as long as they meet the condition. -/
def dropTail (p : Char → Bool) (cs : List Char) : List Char := (cs.reverse.dropWhile p).reverse

/-- Remove white space from both ends. -/
def trim (cs : List Char) : List Char := dropTail isBlank (cs.dropWhile isBlank)

/-- Remove white space from the end. -/
def trimEnd (cs : List Char) : List Char := dropTail isBlank cs

/-- Space and tab are white space. -/
theorem isBlank_of_isGap (c : Char) (gap : isGap c = true) : isBlank c = true := by
  simp only [isGap, Bool.or_eq_true, beq_iff_eq] at gap
  rcases gap with rfl | rfl <;> decide

end ComLayout.Text
