import ComLayout.Glob.Exclusion
import ComLayout.Glob.Expansion
import ComLayout.Number.Binary64

/-!
# Discovering headers

A pattern names a file, a directory or many files by wildcards. A file stands for itself, a directory
for the files in it whose names end in `.h`, at any depth with recursion; all other patterns are
expanded. The headers found are put in the order of their paths; of several spellings of one file the
first stays. Then the exclusion rules are applied to the path relative to the root of the enumeration,
and the size limit to the file.

Headers are those of a tree: a pattern that leads out of it, by its anchor or by `..` above the working directory,
lists none here.
-/

namespace ComLayout

open Glob Number

/-- The greatest admissible number of bytes, or something in its place that is no number. A limit that
is not positive admits every size. -/
inductive SizeLimit where
  | int (n : Int)
  | real (x : Binary64)
  | malformed
deriving DecidableEq, Repr

/-- Why headers cannot be listed: the pattern cannot be looked for among the files, a rule of the filter
cannot be applied, or its limit is no number. -/
inductive DiscoveryFault where
  | file (fault : FileFault)
  | rule (fault : RuleFault)
  | malformedLimit
deriving DecidableEq, Repr

/-- Whether a size lies within a limit. -/
def SizeLimit.admits (limit : SizeLimit) (size : Nat) : Except DiscoveryFault Bool :=
  match limit with
  | .int n => .ok (n ≤ 0 || (size : Int) ≤ n)
  | .real x =>
    match x.compareInt 0 with
    | some .gt => .ok (x.compareInt size == some .gt || x.compareInt size == some .eq)
    | some _ => .ok true
    | none => .ok false
  | .malformed => .error .malformedLimit

/-- What keeps a header out of a listing. -/
structure Filter where
  rules : List Rule
  limit : SizeLimit
deriving DecidableEq, Repr

namespace Filter

/-- The filter that keeps nothing out. -/
def none : Filter := ⟨[], .int 0⟩

/-- The rules that hold unless others are given. -/
def standardRules : List String := [".git/**", "build/**", "out/**"]

/-- The limit that holds unless another is given. -/
def standardLimit : Int := 16000000

/-- The filter that holds unless another is given. -/
def standard : Filter := ⟨standardRules.map .glob, .int standardLimit⟩

end Filter

/-- A header that was found: its path as spelled, and where it is. -/
structure Candidate where
  path : Path
  place : Location
deriving DecidableEq, Repr

namespace Discovery

/-- The ending of the names of headers. -/
def headerEnding : String := ".h"

/-- Whether the last of some names is that of a header. -/
def isHeaderName (names : List String) : Bool :=
  names.getLast?.any fun name => headerEnding.toList.isSuffixOf name.toList

/-- The file at a path, if there is one. -/
def candidate? (tree : Tree) (path : Path) : Except FileFault (Option Candidate) := do
  let found ← tree.find? path
  .ok ((found.filter tree.isFile).map fun place => ⟨path, place⟩)

/-- The files at some paths; a path that is too long is a fault. -/
def filesAt (tree : Tree) : List Path → Except FileFault (List Candidate)
  | [] => .ok []
  | path :: rest => do
    let first ← candidate? tree path
    let others ← filesAt tree rest
    .ok (first.toList ++ others)

/-- Whether an entry below a directory is looked at: with recursion the directories are, because they
are entered, and everything that has the name of a header. -/
def isVisited (tree : Tree) (place : Location) (recurse : Bool) (names : List String) : Bool :=
  if recurse then isHeaderName names || tree.isDir (place ++ names)
  else isHeaderName names && names.length == 1

/-- The headers below a directory, or only those directly in it. Recursion that comes to a directory too deep to
be entered is refused. -/
def headersIn (tree : Tree) (base : Path) (place : Location) (recurse : Bool) :
    Except FileFault (List Candidate) :=
  if recurse && (tree.below place).any (tree.sinks place) then .error .tooDeep
  else filesAt tree (((tree.below place).filter (isVisited tree place recurse)).map base.append)

/-- The files that a pattern with wildcards leads to. -/
def filesMatching (tree : Tree) (pattern : String) (recurse : Bool) :
    Except FileFault (List Candidate) := do
  let reached ← expand tree pattern recurse
  filesAt tree (reached.map Reached.path)

/-- The root of an enumeration and the files it yields, in no particular order and perhaps more than
once. -/
def enumerate (tree : Tree) (pattern : String) (recurse : Bool) :
    Except FileFault (Path × List Candidate) := do
  let base := Path.ofString pattern
  match ← tree.find? base with
  | some place =>
    if tree.isFile place then .ok (base.parent, [⟨base, place⟩])
    else .ok (base, ← headersIn tree base place recurse)
  | none => .ok (fixedRoot pattern, ← filesMatching tree pattern recurse)

/-- The candidates in the order of their paths. -/
def sort (cs : List Candidate) : List Candidate := cs.mergeSort fun c d => !d.path.before c.path

/-- The first candidate for each file that is not among those seen. -/
def firstOfEach (seen : List Location) : List Candidate → List Candidate
  | [] => []
  | c :: rest =>
    if seen.contains c.place then firstOfEach seen rest
    else c :: firstOfEach (c.place :: seen) rest

/-- The path to which the exclusion rules are applied. -/
def relativePath (root path : Path) : Path :=
  match root.under? path with
  | some names => ⟨.none, names⟩
  | none => path

/-- Whether a candidate passes the filter. -/
def passes (tree : Tree) (root : Path) (filter : Filter) (c : Candidate) :
    Except DiscoveryFault Bool := do
  if ← (anyExcludes (relativePath root c.path) filter.rules).mapError .rule then .ok false
  else filter.limit.admits (tree.sizeOf c.place)

/-- The candidates that pass the filter; they are tried in order. -/
def select (tree : Tree) (root : Path) (filter : Filter) :
    List Candidate → Except DiscoveryFault (List Candidate)
  | [] => .ok []
  | c :: rest => do
    let kept ← passes tree root filter c
    let others ← select tree root filter rest
    .ok (if kept then c :: others else others)

/-- The headers that a pattern leads to. -/
def discover (tree : Tree) (pattern : String) (recurse : Bool) (filter : Filter) :
    Except DiscoveryFault (List Candidate) := do
  let (root, found) ← (enumerate tree pattern recurse).mapError .file
  select tree root filter (firstOfEach [] (sort found))

/-- Sorting loses no candidate and adds none. -/
theorem sort_perm (cs : List Candidate) : (sort cs).Perm cs := List.mergeSort_perm cs _

end Discovery

end ComLayout
