import ComLayout.Files.Tree
import ComLayout.Glob.Pattern

/-!
# Expanding a pattern against a file tree

The components of a pattern before the first with a wildcard are a path, which is followed as it is.
From there on the pattern is expanded component by component. A component without wildcards leads to the
entry of that name, which for `..` is the parent directory, a single dot to the directory itself, and a
component with wildcards to the entries it matches. Entries whose names begin with a dot are matched only by
components that begin with one. With recursion, a component that is exactly `**` leads to where it
stands, be that a file or a directory, and to all entries below, as long as no name on the way begins
with a dot. Where more components follow, wildcards lead to directories only.

Empty components lead nowhere; but where one of them stands last, only directories are reached. A
directory whose path is too long cannot be entered, and nothing is reached through it. Recursion that comes to
directories too far below one another is refused as a whole.

A tree holds what lies below the working directory. Patterns from the root of the file system, and `..` above
the working directory, lead out of it, and what they would find is not told here.
-/

namespace ComLayout.Glob

/-- What one component of a pattern does. -/
inductive Step where
  | stay
  | entry (name : String)
  | wild (hidden : Bool) (pieces : List Piece)
  | deep
deriving DecidableEq, Repr

/-- A name that begins with a dot. -/
def isHidden (name : String) : Bool := name.toList.head? == some '.'

/-- The step for a component of a pattern. -/
def Step.ofComponent (recurse : Bool) (component : String) : Step :=
  if component = "" ∨ component = "." then .stay
  else if !hasWildcard component then .entry component
  else if recurse && component = "**" then .deep
  else .wild (isHidden component) (piecesOf component)

/-- An entry that was reached: how the path to it is spelled, and where it is. -/
structure Reached where
  spelled : List String
  place : Location
deriving DecidableEq, Repr

/-- The path to an entry that was reached. -/
def Reached.path (r : Reached) : Path := ⟨.none, r.spelled⟩

/-- An entry below, by the names that lead to it. -/
def Reached.descend (r : Reached) (names : List String) : Reached :=
  ⟨r.spelled ++ names, r.place ++ names⟩

/-- What a name leads to from a directory, if there is anything; the root has no parent in the tree. -/
def Reached.next? (tree : Tree) (r : Reached) (name : String) : Option Reached :=
  (tree.find? (r.path.append [name])).toOption.join.map fun place => ⟨r.spelled ++ [name], place⟩

/-- Those of some entries that may be reached: all by the last step, directories by the others. -/
def Reached.admitted (tree : Tree) (last : Bool) (found : List Reached) : List Reached :=
  if last then found else found.filter fun r => tree.isDir r.place

/-- The entries that a component with wildcards leads to. -/
def Reached.matching (tree : Tree) (hidden : Bool) (pieces : List Piece) (r : Reached) : List Reached :=
  ((tree.children r.place).filter fun name =>
    (hidden || !isHidden name) && matchesPieces pieces name.toList).map fun name => r.descend [name]

/-- Whether names lead to an entry below with no hidden name on the way, as far as the directories on the way
can be entered. -/
def Reached.sees (tree : Tree) (r : Reached) (names : List String) : Bool :=
  !names.any isHidden && tree.holdsDir (r.path.append names.dropLast)

/-- The entries below that are seen. -/
def Reached.visible (tree : Tree) (r : Reached) : List Reached :=
  ((tree.below r.place).filter (r.sees tree)).map r.descend

/-- Whether recursion comes to a directory that is too deep to be entered. -/
def Reached.sinks (tree : Tree) (r : Reached) : Bool :=
  tree.holdsDir r.path && (tree.below r.place).any fun names => tree.sinks r.place names && r.sees tree names

/-- The entries that a step leads to from a directory, apart from recursion leading to itself. -/
def Step.onward (tree : Tree) (last : Bool) (r : Reached) : Step → List Reached
  | .stay => [r]
  | .entry name => (r.next? tree name).toList
  | .wild hidden pieces => Reached.admitted tree last (r.matching tree hidden pieces)
  | .deep => Reached.admitted tree last (r.visible tree)

/-- The entries that a step leads to. From a file only recursion leads anywhere, to the file itself; the
same holds for a directory that cannot be entered. -/
def Step.lead (tree : Tree) (last : Bool) (r : Reached) (step : Step) : List Reached :=
  let further := if tree.holdsDir r.path then step.onward tree last r else []
  if step = .deep then r :: further else further

/-- The entries that steps lead to, one after the other. -/
def expandSteps (tree : Tree) : List Step → List Reached → List Reached
  | [], reached => reached
  | step :: steps, reached =>
    expandSteps tree steps (reached.flatMap fun r => step.lead tree steps.isEmpty r).eraseDups

/-- Whether recursion comes to a directory that is too deep on the way of steps, one after the other. -/
def stepsSink (tree : Tree) : List Step → List Reached → Bool
  | [], _ => false
  | step :: steps, reached =>
    (step = .deep && reached.any (Reached.sinks tree)) ||
      stepsSink tree steps (reached.flatMap fun r => step.lead tree steps.isEmpty r).eraseDups

/-- The components of a pattern as they are spelled, without those that are empty but for the last. -/
def components (pattern : String) : List String :=
  let pieces := (Path.pieces pattern.toList).map String.ofList
  pieces.dropLast.filter (· != "") ++ pieces.getLast?.toList

/-- The entries that steps lead to from a path. The path is refused if it cannot be one, and the steps if
recursion comes too deep. -/
def expandFrom (tree : Tree) (front : Path) (steps : List Step) : Except FileFault (List Reached) :=
  match tree.locate front with
  | .ok place =>
    if !tree.exists? place then .ok []
    else if stepsSink tree steps [⟨front.names, place⟩] then .error .tooDeep
    else .ok (expandSteps tree steps [⟨front.names, place⟩])
  | .error .zeroCharacter => .error .zeroCharacter
  | .error _ => .ok []

/-- The entries of a tree that a pattern leads to, some of them perhaps more than once. A pattern that
begins with a slash leads out of the tree, where nothing is looked for, and one without wildcards nowhere. Too
many components are refused, and so is recursion into directories that are too deep. -/
def expand (tree : Tree) (pattern : String) (recurse : Bool) : Except FileFault (List Reached) :=
  let (front, behind) := (components pattern).span fun component => !hasWildcard component
  if maxDepth < behind.length then .error .tooDeep
  else if (Path.ofString pattern).anchor = .none && !behind.isEmpty then
    expandFrom tree (Path.ofString (String.intercalate "/" front))
      (behind.map (Step.ofComponent recurse))
  else .ok []

/-- The leading components of a path that hold no wildcard. -/
def fixedRoot (pattern : String) : Path :=
  let path := Path.ofString pattern
  { path with names := path.names.takeWhile fun name => !hasWildcard name }

end ComLayout.Glob
