import ComLayout.Files.Path

/-!
# File trees

A tree holds directories and files by their location, the list of names that leads to them from the
root. A directory is there as soon as it is listed or something lies below it, and a location below
which something lies is a directory, never a file. So every listing describes a tree. Names are never
empty, are neither `.` nor `..`, and hold no slash.

A path is followed name by name; `..` leads to the parent directory, and nothing outside the root can be
reached. No entry has a name of more than 255 bytes, no path may take up 4096 bytes or more, and a path
that holds the character with the code zero is refused before it is followed.

A tree describes what lies below the working directory. A path that is anchored, and one with more steps up than
down, leaves it; of what such a path would lead to nothing is told, and it is treated as a path to nothing. Entries
are files and directories alone, without links and without permissions, and their names are texts, so names that are
no UTF-8 do not occur.
-/

namespace ComLayout

/-- The names that lead from the root of a tree to an entry. -/
abbrev Location := List String

/-- The most directories that are made or entered, and the most components of a pattern that are expanded, one
below the other. The limit is nominal: where exactly it lies depends on what else is going on. -/
def maxDepth : Nat := 980

/-- Whether a text can be the name of an entry. -/
def isEntryName (name : String) : Bool :=
  name != "" && name != "." && name != ".." && !name.toList.contains '/'

/-- The directories that are listed, and the files with their contents. -/
structure Tree where
  dirs : List Location
  files : List (Location × ByteArray)
  named : ∀ place ∈ dirs ++ files.map Prod.fst, ∀ name ∈ place, isEntryName name = true

/-- Why an entry cannot be used as asked. -/
inductive FileFault where
  | notFound
  | isDirectory
  | notDirectory
  | alreadyExists
  | tooLong
  | tooDeep
  | zeroCharacter
deriving DecidableEq, Repr

/-- The message for a path that is refused before it is followed; other faults have none. -/
def FileFault.message? : FileFault → Option String
  | .zeroCharacter => some "embedded null byte"
  | _ => none

namespace Tree

/-- The tree without entries. -/
def empty : Tree := ⟨[], [], by simp⟩

/-- All listed locations. -/
def listed (t : Tree) : List Location := t.dirs ++ t.files.map Prod.fst

/-- A directory: the root, a listed one, or a location below which something is listed. -/
def isDir (t : Tree) (place : Location) : Bool :=
  place.isEmpty || t.dirs.any place.isPrefixOf ||
    t.files.any fun entry => place.isPrefixOf entry.1 && place.length < entry.1.length

/-- The contents of a file. -/
def contents? (t : Tree) (place : Location) : Option ByteArray :=
  if t.isDir place then none else t.files.lookup place

/-- A file. -/
def isFile (t : Tree) (place : Location) : Bool := (t.contents? place).isSome

/-- A file or a directory. -/
def exists? (t : Tree) (place : Location) : Bool := t.isFile place || t.isDir place

/-- The number of bytes in a file. -/
def sizeOf (t : Tree) (place : Location) : Nat := ((t.contents? place).map ByteArray.size).getD 0

/-- The prefixes of a location that are not empty, the shortest first. -/
def stages : Location → List Location
  | [] => []
  | name :: rest => [name] :: (stages rest).map (name :: ·)

/-- The entries below a directory, once each, by the names that lead there from the directory. -/
def below (t : Tree) (place : Location) : List Location :=
  ((t.listed.filter place.isPrefixOf).flatMap fun other => stages (other.drop place.length)).eraseDups

/-- An entry below a directory, by the names that lead there, is a directory too deep to be entered. -/
def sinks (t : Tree) (place names : Location) : Bool :=
  maxDepth < names.length && t.isDir (place ++ names)

/-- Every entry below the root, once. -/
def entries (t : Tree) : List Location := t.below []

/-- The names of the entries directly in a directory. -/
def children (t : Tree) (place : Location) : List String :=
  ((t.listed.filter place.isPrefixOf).filterMap fun other => (other.drop place.length).head?).eraseDups

/-- The most bytes that the name of an entry takes up. -/
def maxNameBytes : Nat := 255

/-- The most bytes that the spelling of a path takes up. -/
def maxPathBytes : Nat := 4095

/-- Go from a directory to the entry of a name, which need not exist, or to the parent directory. -/
def enter (t : Tree) (place : Location) (name : String) : Except FileFault Location :=
  if t.isDir place then
    if name = ".." then .ok place.dropLast
    else if maxNameBytes < name.utf8ByteSize then .error .tooLong
    else .ok (place ++ [name])
  else if t.isFile place then .error .notDirectory
  else .error .notFound

/-- Follow names one by one; all but the last have to lead to directories. Above the root there are
directories in which nothing is found: the tree does not go on there, and does not tell where it hangs. -/
def follow (t : Tree) (place : Location) : List String → Except FileFault Location
  | [] => .ok place
  | name :: rest =>
    if place.isEmpty && name = ".." then
      .error (if rest.all (· == "..") then .isDirectory else .notFound)
    else do t.follow (← t.enter place name) rest

/-- The location of a path. A path that is anchored leads out of the tree, even where it spells the way back to the
working directory. -/
def locate (t : Tree) (p : Path) : Except FileFault Location :=
  if p.names.any fun name => name.toList.contains '\x00' then .error .zeroCharacter
  else if maxPathBytes < p.toString.utf8ByteSize then .error .tooLong
  else if p.anchor = .none then t.follow [] p.names
  else .error .notFound

/-- The location of a path that leads to an existing entry. Only what is too long is a fault. -/
def find? (t : Tree) (p : Path) : Except FileFault (Option Location) :=
  match t.locate p with
  | .ok place => .ok (if t.exists? place then some place else none)
  | .error .tooLong => .error .tooLong
  | .error _ => .ok none

/-- Whether a path leads to an existing entry. -/
def holds (t : Tree) (p : Path) : Bool := (t.find? p).toOption.join.isSome

/-- Whether a path leads to a directory. -/
def holdsDir (t : Tree) (p : Path) : Bool :=
  match t.locate p with
  | .ok place => t.isDir place
  | .error _ => false

/-- The contents of the file at a path. -/
def read (t : Tree) (p : Path) : Except FileFault ByteArray := do
  let place ← t.locate p
  match t.contents? place with
  | some bytes => .ok bytes
  | none => .error (if t.isDir place then .isDirectory else .notFound)

/-- No location is both a file and a directory. -/
theorem isDir_of_isFile (t : Tree) (place : Location) (file : t.isFile place = true) :
    t.isDir place = false := by
  cases dir : t.isDir place with
  | false => rfl
  | true => simp [isFile, contents?, dir] at file

/-- The root is a directory of every tree. -/
theorem isDir_root (t : Tree) : t.isDir [] = true := rfl

end Tree

end ComLayout
