import ComLayout.Text.Quoted

/-!
# JSON texts

A JSON value is written over several lines, each level of nesting indented by two more spaces; empty
lists and objects stay on one line. A text is written in ASCII: quotes, backslashes and the usual
control characters have short escapes, and every other character outside the span from space to tilde
is written by its UTF-16 units. The entries of an object keep their order. Integers are written in decimal, and
no limit is set to their digits.
-/

namespace ComLayout

open Text

/-- A JSON value. The numbers of a report are integers. -/
inductive Json where
  | null
  | int (n : Int)
  | text (s : List Char)
  | list (items : List Json)
  | object (entries : List (List Char × Json))

namespace Json

/-- The escape for one UTF-16 unit. -/
def unitEscape (unit : Nat) : List Char := '\\' :: 'u' :: hexDigits 4 unit

/-- The escapes for a character: one unit, or a surrogate pair beyond the basic plane. -/
def escape (c : Char) : List Char :=
  if c.toNat < 0x10000 then unitEscape c.toNat
  else
    let beyond := c.toNat - 0x10000
    unitEscape (0xD800 + beyond / 0x400) ++ unitEscape (0xDC00 + beyond % 0x400)

/-- The written form of one character of a text. -/
def written (c : Char) : List Char :=
  if c == '"' || c == '\\' then ['\\', c]
  else if c == '\n' then ['\\', 'n']
  else if c == '\r' then ['\\', 'r']
  else if c == '\t' then ['\\', 't']
  else if c == '\x08' then ['\\', 'b']
  else if c == '\x0c' then ['\\', 'f']
  else if ' ' ≤ c ∧ c ≤ '~' then [c]
  else escape c

/-- The written form of a text. -/
def quote (s : List Char) : List Char := '"' :: s.flatMap written ++ ['"']

/-- A line break and the indentation of a level. -/
def breakAt (level : Nat) : List Char := '\n' :: List.replicate (2 * level) ' '

/-- Members between brackets, each on a line of its own, one level deeper than the brackets. -/
def enclose (left right : Char) (level : Nat) (members : List (List Char)) : List Char :=
  if members.isEmpty then [left, right]
  else left :: breakAt (level + 1) ++ List.intercalate (',' :: breakAt (level + 1)) members ++
    breakAt level ++ [right]

mutual

/-- The written form of a value at a level of nesting. -/
def renderAt (level : Nat) : Json → List Char
  | .null => "null".toList
  | .int n => (toString n).toList
  | .text s => quote s
  | .list items => enclose '[' ']' level (renderItems (level + 1) items)
  | .object entries => enclose '\x7b' '\x7d' level (renderEntries (level + 1) entries)

/-- The written forms of the members of a list. -/
def renderItems (level : Nat) : List Json → List (List Char)
  | [] => []
  | item :: rest => renderAt level item :: renderItems level rest

/-- The written forms of the entries of an object. -/
def renderEntries (level : Nat) : List (List Char × Json) → List (List Char)
  | [] => []
  | (key, value) :: rest =>
    (quote key ++ ':' :: ' ' :: renderAt level value) :: renderEntries level rest

end

/-- The written form of a value. -/
def render (value : Json) : List Char := renderAt 0 value

/-- A text, or null where there is none. -/
def ofText? : Option String → Json
  | some s => .text s.toList
  | none => .null

/-- An integer, or null where there is none. -/
def ofInt? : Option Int → Json
  | some n => .int n
  | none => .null

end Json

end ComLayout
