import ComLayout.Text.Blank

/-!
# Reading TOML

A reader takes what it reads from the front of a text and returns the rest. It fails where the text is
not TOML, at a decimal integer that has too many digits, and where values are nested too deep.
-/

namespace ComLayout.Toml

open Text

/-- Why a text cannot be read as TOML. -/
inductive Fault where
  | malformed
  | tooManyDigits (count : Nat)
  | tooDeep
deriving DecidableEq, Repr

/-- What was read, and the rest of the text. -/
abbrev Taken (α : Type) := α × List Char

/-- The reading that fails because the text is not TOML. -/
def malformed {α : Type} : Except Fault α := .error .malformed

/-- A control character that may stand neither in a comment nor in a text. -/
def isControl (c : Char) : Bool := (c.toNat < 32 && c != '\t') || c.toNat == 127

/-- Space, tab and line feed, which separate the items of an array. -/
def isSpacing (c : Char) : Bool := isGap c || c == '\n'

/-- Pass over spaces and tabs. -/
def skipGaps (cs : List Char) : List Char := cs.dropWhile isGap

/-- Pass over a comment, up to the end of its line. -/
def skipCommentBody : List Char → Except Fault (List Char)
  | [] => .ok []
  | c :: rest =>
    if c == '\n' then .ok (c :: rest) else if isControl c then malformed else skipCommentBody rest

/-- Pass over a comment, if one begins here. -/
def skipComment : List Char → Except Fault (List Char)
  | '#' :: rest => skipCommentBody rest
  | cs => .ok cs

/-- Pass over spacing and comments; the flag tells whether a comment has begun. -/
def skipSpacingFrom : (inComment : Bool) → List Char → Except Fault (List Char)
  | _, [] => .ok []
  | false, c :: rest =>
    if isSpacing c then skipSpacingFrom false rest
    else if c == '#' then skipSpacingFrom true rest
    else .ok (c :: rest)
  | true, c :: rest =>
    if c == '\n' then skipSpacingFrom false rest
    else if isControl c then malformed
    else skipSpacingFrom true rest

/-- Pass over spacing and comments. -/
def skipSpacing (cs : List Char) : Except Fault (List Char) := skipSpacingFrom false cs

/-- Take a character, which has to stand here. -/
def expect (c : Char) : List Char → Except Fault (List Char)
  | d :: rest => if d == c then .ok rest else malformed
  | [] => malformed

end ComLayout.Toml
