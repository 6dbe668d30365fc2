import ComLayout.Number.Reader
import ComLayout.Text.LowerCase
import ComLayout.Text.Split
import ComLayout.Value.Basic

/-!
# Values of texts

A text from the environment is read as a truth value if it spells one in any case, as a real if it has
a point, and else as an integer. A text that is none of these is a list of the items between its
commas, if it has any, and else stays a text. Items are trimmed, and blank ones left out.
-/

namespace ComLayout

open Number Text

namespace Value

/-- The items between the commas of a text. -/
def itemsOf (raw : List Char) : List String :=
  (((split ',' raw).map trim).filter (!·.isEmpty)).map String.ofList

/-- The truth value that a text spells. -/
def boolOf? (raw : List Char) : Option Bool :=
  let small := lowerText raw
  if small = "true".toList then some true
  else if small = "false".toList then some false
  else none

/-- The number that a text spells. -/
def numberOf? (raw : List Char) : Option Value :=
  if raw.contains '.' then (readReal? raw).map .real else (readInt? raw).map .int

/-- The list that a text spells. -/
def listOf? (raw : List Char) : Option Value :=
  if raw.contains ',' then some (.list ((itemsOf raw).map .text)) else none

/-- The value that a text spells. -/
def ofText (raw : String) : Value :=
  let cs := raw.toList
  ((boolOf? cs).map Value.bool <|> numberOf? cs <|> listOf? cs).getD (.text raw)

/-- A text without commas is no list. -/
theorem listOf_of_not_mem (raw : List Char) (plain : ',' ∉ raw) : listOf? raw = none := by
  simp [listOf?, plain]

end Value

end ComLayout
