/-!
# Wildcard patterns for names

A pattern matches a whole name: `*` matches any text, `?` any character, and a bracket expression one
character of a set. A bracket expression begins with `[`, optionally `!`, and ends at the first `]`
that is not its first member; without such an end the bracket stands for itself.

Between the brackets a hyphen joins its two neighbours into a range, except where it is the first or
last member or follows a range directly. A range whose ends are out of order vanishes together with
its ends. What is left is negated if it begins with `!`. An empty set matches nothing, an empty
negated set any character.
-/

namespace ComLayout.Glob

/-- One piece of a pattern. A set lists closed ranges; single members are ranges of one. -/
inductive Piece where
  | star
  | anyChar
  | char (c : Char)
  | oneOf (negated : Bool) (ranges : List (Char × Char))
deriving DecidableEq, Repr

/-- Membership in a set of ranges. -/
def inRanges (ranges : List (Char × Char)) (c : Char) : Bool :=
  ranges.any fun range => range.1 ≤ c && c ≤ range.2

/-- Whether a piece matches one character. -/
def Piece.admits : Piece → Char → Bool
  | .star, _ => true
  | .anyChar, _ => true
  | .char d, c => d == c
  | .oneOf negated ranges, c => inRanges ranges c != negated

/-- Cut the inside of a bracket expression at the hyphens that join two members; `guard` is the number
of members that the next such hyphen has to leave in front of it. -/
def cutAtHyphens (guard : Nat) : List Char → List (List Char)
  | [] => [[]]
  | c :: rest =>
    if c == '-' && guard == 0 then [] :: cutAtHyphens 2 rest
    else match cutAtHyphens (guard - 1) rest with
      | [] => [[c]]
      | chunk :: more => (c :: chunk) :: more

/-- A hyphen that is the last member stands for itself. -/
def restoreLastHyphen : List (List Char) → List (List Char)
  | [] => []
  | [chunk, []] => [chunk ++ ['-']]
  | chunk :: more => chunk :: restoreLastHyphen more

/-- Drop the ranges whose ends are out of order, together with their ends, from the last to the
first. -/
def dropReversed : List (List Char) → List (List Char)
  | [] => []
  | chunk :: more =>
    match dropReversed more with
    | [] => [chunk]
    | next :: others =>
      match chunk.getLast?, next.head? with
      | some low, some high =>
        if high < low then (chunk.dropLast ++ next.tail) :: others else chunk :: next :: others
      | _, _ => chunk :: next :: others

/-- The members of a chunk on their own. -/
def singles (chunk : List Char) : List (Char × Char) := chunk.map fun c => (c, c)

/-- The members of chunks that ranges join: `first` is the upper end of the range before, if any. -/
def joinChunks : (lower : Option Char) → List (List Char) → List (Char × Char)
  | _, [] => []
  | lower, chunk :: more =>
    let joined := match lower, chunk with
      | some low, high :: rest => (low, high) :: singles (if more.isEmpty then rest else rest.dropLast)
      | _, chunk => singles (if more.isEmpty then chunk else chunk.dropLast)
    joined ++ joinChunks chunk.getLast? more

/-- The members of a set. Where a negation sign stood before a hyphen, the hyphen is a member. -/
def setOfChunks : List (List Char) → List (Char × Char)
  | [] :: chunk :: more => joinChunks none (('-' :: chunk) :: more)
  | chunks => joinChunks none chunks

/-- The piece for the inside of a bracket expression. -/
def pieceOfSet (inside : List Char) : Piece :=
  let guard := if inside.head? == some '!' then 2 else 1
  match dropReversed (restoreLastHyphen (cutAtHyphens guard inside)) with
  | ('!' :: chunk) :: more => .oneOf true (setOfChunks (chunk :: more))
  | chunks => .oneOf false (setOfChunks chunks)

/-- Cut a text before its first `]`; nothing if there is none. -/
def upToBracket : List Char → Option (List Char × List Char)
  | [] => none
  | c :: rest =>
    if c == ']' then some ([], rest)
    else (upToBracket rest).map fun (inside, rest) => (c :: inside, rest)

/-- The inside of a bracket expression and the text after it, where the first member may be `]`. -/
def bracket? : List Char → Option (List Char × List Char)
  | '!' :: ']' :: rest => (upToBracket rest).map fun (inside, rest) => ('!' :: ']' :: inside, rest)
  | '!' :: rest => (upToBracket rest).map fun (inside, rest) => ('!' :: inside, rest)
  | ']' :: rest => (upToBracket rest).map fun (inside, rest) => (']' :: inside, rest)
  | rest => upToBracket rest

/-- The pieces of a pattern after passing over `skip` characters. -/
def piecesFrom : (skip : Nat) → List Char → List Piece
  | _, [] => []
  | skip + 1, _ :: rest => piecesFrom skip rest
  | 0, c :: rest =>
    if c == '*' then .star :: piecesFrom 0 rest
    else if c == '?' then .anyChar :: piecesFrom 0 rest
    else if c == '[' then
      match bracket? rest with
      | some (inside, _) => pieceOfSet inside :: piecesFrom (inside.length + 1) rest
      | none => .char '[' :: piecesFrom 0 rest
    else .char c :: piecesFrom 0 rest

/-- The pieces of a pattern. -/
def piecesOf (pattern : String) : List Piece := piecesFrom 0 pattern.toList

/-- What is left of a text after each of its beginnings, the longest first. -/
def suffixes : List Char → List (List Char)
  | [] => [[]]
  | c :: rest => (c :: rest) :: suffixes rest

/-- What is left of a text after its first character, if a piece admits that. -/
def Piece.step (piece : Piece) : List Char → Option (List Char)
  | [] => none
  | c :: rest => if piece.admits c then some rest else none

/-- What may be left behind a piece of what may be left before it. All of these are ends of one text,
the longest first, so a star leaves the ends of the first. -/
def Piece.leave : Piece → List (List Char) → List (List Char)
  | .star, left => (left.head?.map suffixes).getD []
  | piece, left => left.filterMap piece.step

/-- What may be left behind several pieces. -/
def leaveAll : List Piece → List (List Char) → List (List Char)
  | [], left => left
  | piece :: pieces, left => leaveAll pieces (piece.leave left)

/-- Whether pieces match a whole text: nothing may be left of it. -/
def matchesPieces (pieces : List Piece) (cs : List Char) : Bool :=
  (leaveAll pieces [cs]).any List.isEmpty

/-- Whether a pattern matches a name. -/
def matchesName (pattern name : String) : Bool := matchesPieces (piecesOf pattern) name.toList

/-- Whether a text holds a wildcard. -/
def hasWildcard (s : String) : Bool := s.toList.any fun c => c == '*' || c == '?' || c == '['

/-- The empty text is an end of every text. -/
theorem nil_mem_suffixes (cs : List Char) : [] ∈ suffixes cs := by
  induction cs with
  | nil => simp [suffixes]
  | cons c rest inductionHypothesis => simp [suffixes, inductionHypothesis]

/-- A character passes over itself where it stands first, and leaves nothing elsewhere. -/
theorem leave_char (c : Char) (cs : List Char) :
    (Piece.char c).leave [cs] = if cs.head? = some c then [cs.tail] else [] := by
  cases cs with
  | nil => rfl
  | cons d rest =>
    by_cases same : c = d
    · simp [Piece.leave, Piece.step, Piece.admits, same]
    · have apart : d ≠ c := fun equal => same equal.symm
      simp [Piece.leave, Piece.step, Piece.admits, same, apart]

/-- Where nothing is left that could be read, characters leave nothing. -/
theorem leaveAll_nothing (cs : List Char) : leaveAll (cs.map Piece.char) [] = [] := by
  induction cs with
  | nil => rfl
  | cons c rest inductionHypothesis => exact inductionHypothesis

/-- A text without wildcards is the pattern of itself alone. -/
theorem literal_matches (cs other : List Char) :
    matchesPieces (cs.map Piece.char) other = true ↔ other = cs := by
  induction cs generalizing other with
  | nil => cases other <;> simp [matchesPieces, leaveAll]
  | cons c rest inductionHypothesis =>
    cases other with
    | nil => simp [matchesPieces, leaveAll, leave_char, leaveAll_nothing]
    | cons d more =>
      by_cases same : d = c
      · simpa [matchesPieces, leaveAll, leave_char, same] using inductionHypothesis more
      · simp [matchesPieces, leaveAll, leave_char, leaveAll_nothing, same]

end ComLayout.Glob
