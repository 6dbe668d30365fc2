/-!
# The status line

A transient line on a terminal shows what is going on, under a handle for each activity. Showing
returns to the start of the line and writes the handle and the text, and blanks over what is left of
the handle's previous text. Clearing blanks the handle's text and returns to the start. A line that is
not enabled writes nothing.
-/

namespace ComLayout

/-- A call on a status display. -/
inductive StatusCall where
  | show_ (handle text : String)
  | clear (handle : String)
deriving DecidableEq, Repr

/-- The state of a status line: the width of the text that each handle has on it. -/
structure StatusLine where
  enabled : Bool
  widths : List (String × Nat)
deriving DecidableEq, Repr

namespace StatusLine

/-- A line on which nothing is shown. -/
def new (enabled : Bool) : StatusLine := ⟨enabled, []⟩

/-- The width of a handle's text, zero if it has none. -/
def widthOf (line : StatusLine) (handle : String) : Nat := (line.widths.lookup handle).getD 0

/-- Forget a handle. -/
def forget (line : StatusLine) (handle : String) : StatusLine :=
  { line with widths := line.widths.filter fun entry => entry.1 != handle }

/-- Remember the width of a handle's text. -/
def remember (line : StatusLine) (handle : String) (width : Nat) : StatusLine :=
  { line with widths := (handle, width) :: (line.forget handle).widths }

/-- Some blanks. -/
def blanks (n : Nat) : List Char := List.replicate n ' '

/-- What a handle shows. -/
def caption (handle text : String) : List Char := '[' :: handle.toList ++ ']' :: ' ' :: text.toList

/-- Make a call; the second component is what is written. -/
def call (line : StatusLine) : StatusCall → StatusLine × List Char
  | .show_ handle text =>
    if line.enabled then
      let shown := caption handle text
      (line.remember handle shown.length,
        '\r' :: shown ++ blanks (line.widthOf handle - shown.length))
    else (line, [])
  | .clear handle =>
    let width := line.widthOf handle
    (line.forget handle,
      if line.enabled && width != 0 then '\r' :: blanks width ++ ['\r'] else [])

/-- Make several calls. -/
def calls (line : StatusLine) : List StatusCall → StatusLine × List Char
  | [] => (line, [])
  | first :: rest =>
    let (line, written) := line.call first
    let (line, more) := line.calls rest
    (line, written ++ more)

end StatusLine

end ComLayout
