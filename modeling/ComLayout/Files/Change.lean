import ComLayout.Files.Tree

/-!
# Changing a file tree

Directories are made, and files written, appended to and removed, by the paths that lead to them. A
change that fails leaves the tree as it is, except that directories which were made on the way to a
fault stay.
-/

namespace ComLayout.Tree

/-- List a directory. -/
def addDir (t : Tree) (place : Location) : Tree :=
  if valid : place.all isEntryName then
    { t with
      dirs := t.dirs ++ [place]
      named := by
        intro other member name inside
        simp only [List.mem_append, List.mem_singleton] at member
        rcases member with (listed | rfl) | listed
        · exact t.named other (List.mem_append_left _ listed) name inside
        · exact List.all_eq_true.mp valid name inside
        · exact t.named other (List.mem_append_right _ listed) name inside }
  else t

/-- List a file with its contents, in place of an earlier one at the same location. -/
def addFile (t : Tree) (place : Location) (bytes : ByteArray) : Tree :=
  if valid : place.all isEntryName then
    { t with
      files := (place, bytes) :: t.files.filter (fun entry => entry.1 != place)
      named := by
        intro other member name inside
        simp only [List.map_cons, List.mem_append, List.mem_cons, List.mem_map, List.mem_filter]
          at member
        rcases member with listed | rfl | ⟨entry, ⟨listed, _⟩, rfl⟩
        · exact t.named other (List.mem_append_left _ listed) name inside
        · exact List.all_eq_true.mp valid name inside
        · exact t.named entry.1 (List.mem_append_right _ (List.mem_map_of_mem listed)) name inside }
  else t

/-- Take a file off the list. -/
def dropFile (t : Tree) (place : Location) : Tree :=
  { t with
    files := t.files.filter (fun entry => entry.1 != place)
    named := by
      intro other member name inside
      simp only [List.mem_append, List.mem_map, List.mem_filter] at member
      rcases member with listed | ⟨entry, ⟨listed, _⟩, rfl⟩
      · exact t.named other (List.mem_append_left _ listed) name inside
      · exact t.named entry.1 (List.mem_append_right _ (List.mem_map_of_mem listed)) name inside }

/-- Make a directory; the one above it has to exist, and nothing may be there yet. -/
def makeDir (t : Tree) (p : Path) : Except FileFault Tree := do
  let place ← t.locate p
  if t.exists? place then .error .alreadyExists else .ok (t.addDir place)

/-- What a fault in making a directory leads to: none if there is a directory nevertheless. Missing
entries and refused paths are not excused. -/
def excused (t : Tree) (p : Path) : FileFault → Except FileFault Unit
  | .notFound => .error .notFound
  | .zeroCharacter => .error .zeroCharacter
  | .isDirectory => .ok ()
  | fault => if t.holdsDir p then .ok () else .error fault

/-- Make a directory unless it is there. -/
def ensureDir (t : Tree) (p : Path) : Except FileFault Unit × Tree :=
  match t.makeDir p with
  | .ok made => (.ok (), made)
  | .error fault => (t.excused p fault, t)

/-- Make the directory of a path whose names are given from the last to the first. Where something is
missing above it, that is made first, as long as there is room for more directories. -/
def makeDirsUp (t : Tree) (room : Nat) : List String → Except FileFault Unit × Tree
  | [] => t.ensureDir ⟨.none, []⟩
  | name :: above =>
    let path : Path := ⟨.none, (name :: above).reverse⟩
    match t.ensureDir path with
    | (.error .notFound, _) =>
      if room = 0 then (.error .tooDeep, t)
      else match t.makeDirsUp (room - 1) above with
        | (.ok (), t) => t.ensureDir path
        | failed => failed
    | done => done

/-- Make a directory and those above it as far as they are missing. What was made before a fault
stays. -/
def makeDirs (t : Tree) (p : Path) : Except FileFault Unit × Tree :=
  if p.anchor = .none then t.makeDirsUp maxDepth p.names.reverse else t.ensureDir p

/-- The location at which a file can be written: its directory exists, and it is no directory. -/
def writable (t : Tree) (p : Path) : Except FileFault Location := do
  let place ← t.locate p
  if t.isDir place then .error .isDirectory else .ok place

/-- Write a file. -/
def write (t : Tree) (p : Path) (bytes : ByteArray) : Except FileFault Tree := do
  let place ← t.writable p
  .ok (t.addFile place bytes)

/-- Append to a file; a file that does not exist is made. -/
def append (t : Tree) (p : Path) (bytes : ByteArray) : Except FileFault Tree := do
  let place ← t.writable p
  .ok (t.addFile place ((t.contents? place).getD ByteArray.empty ++ bytes))

/-- Make the directory in which a path lies, and then change the tree. -/
def inItsDirectory (t : Tree) (p : Path) (change : Tree → Except FileFault Tree) :
    Except FileFault Unit × Tree :=
  match t.makeDirs p.parent with
  | (.ok (), t) =>
    match change t with
    | .ok changed => (.ok (), changed)
    | .error fault => (.error fault, t)
  | failed => failed

/-- Remove a file; its directory stays. -/
def remove (t : Tree) (p : Path) : Except FileFault Tree := do
  let place ← t.locate p
  if t.isFile place then .ok ((t.addDir place.dropLast).dropFile place)
  else .error (if t.isDir place then .isDirectory else .notFound)

end ComLayout.Tree
