import ComLayout.Proofs.Discovery.Listing

/-!
# What a directory yields

The headers below a directory are the files that names lead to from it, the last of them that of a header.
Each has one path there, so it is its own least spelling, and what is discovered in a directory are just the
headers that pass the filter.
-/

namespace ComLayout

namespace Tree

variable {t : Tree}

/-- Names are followed to a location in use only from one. -/
theorem exists_of_follow {place last : Location} {names : List String}
    (followed : t.follow place names = .ok last) (found : t.exists? last = true) :
    t.exists? place = true := by
  by_cases filled : names = []
  · rw [filled] at followed
    rwa [Except.ok.inj followed]
  · exact exists_of_isDir (isDir_of_follow filled followed)

/-- A path that goes on leads through a directory. -/
theorem holdsDir_of_append {p : Path} {names : List String} {last : Location} (filled : names ≠ [])
    (found : t.locate (p.append names) = .ok last) : t.holdsDir p = true := by
  obtain ⟨place, located, followed⟩ := locate_append found
  rw [holdsDir, located]
  exact isDir_of_follow filled followed

end Tree

/-- A text leads to a directory at a place of the tree. -/
structure LeadsToDirectory (tree : Tree) (text : String) (place : Location) : Prop where
  located : tree.locate (Path.ofString text) = .ok place
  dir : tree.isDir place = true

namespace LeadsToDirectory

variable {tree : Tree} {text : String} {place : Location}

/-- What leads to a directory leads to a location in use. -/
theorem found (leads : LeadsToDirectory tree text place) :
    tree.find? (Path.ofString text) = .ok (some place) :=
  Tree.find?_eq_some.mpr ⟨leads.located, Tree.exists_of_isDir leads.dir⟩

/-- The path to a directory has no anchor. -/
theorem free (leads : LeadsToDirectory tree text place) : (Path.ofString text).anchor = .none :=
  (Tree.locate_eq_ok leads.located).1

end LeadsToDirectory

namespace Discovery

open Glob

/-- A file to which names lead from a directory: its path goes on from that of the directory by the names, and
so does its place. -/
structure FileBelow (tree : Tree) (base : Path) (place : Location) (names : List String) (c : Candidate) : Prop where
  path : c.path = base.append names
  place : c.place = place ++ names
  found : tree.find? c.path = .ok (some c.place)
  file : tree.isFile c.place = true

variable {tree : Tree} {base : Path} {place : Location} {names : List String} {c : Candidate}

/-- A file whose path goes on from that of a directory, by names that do not lead back. -/
theorem fileBelow_of_path (located : tree.locate base = .ok place) (down : ".." ∉ names)
    (path : c.path = base.append names) (found : tree.find? c.path = .ok (some c.place))
    (file : tree.isFile c.place = true) : FileBelow tree base place names c := by
  have whole := (Tree.find?_eq_some.mp found).1
  rw [path] at whole
  obtain ⟨between, first, second⟩ := Tree.locate_append whole
  rw [located, Except.ok.injEq] at first
  exact ⟨path, first ▸ Tree.follow_down down second, found, file⟩

/-- From a directory a file has one path. -/
theorem FileBelow.eq {others : List String} {d : Candidate} (first : FileBelow tree base place names c)
    (second : FileBelow tree base place others d) (same : c.place = d.place) : c = d := by
  have names : names = others := by
    rwa [first.place, second.place, List.append_right_inj] at same
  have paths : c.path = d.path := by rw [first.path, second.path, names]
  exact congrArg₂ Candidate.mk paths same

/-- The location to which names lead from a directory to a file is in use. -/
theorem FileBelow.exists (below : FileBelow tree base place names c) : tree.exists? (place ++ names) = true := by
  rw [← below.place, Tree.exists?, below.file, Bool.true_or]

/-- Names that lead to a file do not lead back. -/
theorem FileBelow.down (below : FileBelow tree base place names c) : ".." ∉ names :=
  Tree.not_back_of_exists below.exists

/-- From a directory the way to a file below it is made of the names. -/
theorem FileBelow.relativePath_eq (below : FileBelow tree base place names c) :
    relativePath base c.path = ⟨.none, names⟩ := by
  rw [relativePath, below.path, Path.under?_append]

/-- A file below a directory is not the directory itself. -/
theorem FileBelow.filled (below : FileBelow tree base place names c) (dir : tree.isDir place = true) :
    names ≠ [] := by
  rintro rfl
  have noDir : tree.isDir c.place = false := tree.isDir_of_isFile c.place below.file
  rw [below.place, List.append_nil, dir] at noDir
  exact Bool.noConfusion noDir

/-- What stands on the way to a file below a directory is a directory, and its path leads there. -/
theorem FileBelow.onTheWay {front : List String} (below : FileBelow tree base place (front ++ names) c)
    (filled : names ≠ []) : tree.holdsDir (base.append front) = true ∧ tree.isDir (place ++ front) = true := by
  obtain ⟨located, -⟩ := Tree.find?_eq_some.mp below.found
  rw [below.path, ← Path.append_append] at located
  have found := below.exists
  rw [← List.append_assoc] at found
  exact ⟨Tree.holdsDir_of_append filled located, Tree.isDir_of_exists found filled⟩

/-- Whether names are those of a header depends on where they end. -/
theorem isHeaderName_append {front : List String} (filled : names ≠ []) :
    isHeaderName (front ++ names) = isHeaderName names := by
  rw [isHeaderName, isHeaderName, List.getLast?_append, List.getLast?_eq_some_getLast filled, Option.some_or]

/-- The headers below a directory are the files to which names lead from it, the last of them that of a
header; without recursion there is one name. -/
theorem mem_headersIn {recurse : Bool} {found : List Candidate} (located : tree.locate base = .ok place)
    (listed : headersIn tree base place recurse = .ok found) (c : Candidate) :
    c ∈ found ↔ ∃ names, FileBelow tree base place names c ∧
      isHeaderName names = true ∧ (recurse = true ∨ names.length = 1) := by
  rw [mem_filesAt (headersIn_eq_ok.mp listed).2, List.mem_map]
  constructor
  · rintro ⟨⟨names, among, path⟩, found, file⟩
    obtain ⟨within, visited⟩ := List.mem_filter.mp among
    have down : ".." ∉ names := Tree.not_back_of_exists (Tree.mem_below.mp within).2
    have below : FileBelow tree base place names c := fileBelow_of_path located down path.symm found file
    refine ⟨names, below, ?_⟩
    have noDir : tree.isDir (place ++ names) = false :=
      below.place ▸ tree.isDir_of_isFile c.place file
    cases recurse <;> simpa [isVisited, noDir] using visited
  · rintro ⟨names, below, header, reached⟩
    have filled : names ≠ [] := by
      rintro rfl
      exact Bool.noConfusion header
    refine ⟨⟨names, List.mem_filter.mpr ⟨Tree.mem_below.mpr ⟨filled, below.exists⟩, ?_⟩, below.path.symm⟩,
      below.found, below.file⟩
    cases recurse with
    | false => simpa [isVisited, header] using reached
    | true => simp [isVisited, header]

/-- A file that an enumeration yielded by way of a directory is kept by a filter. -/
def KeptBelow (tree : Tree) (filter : Filter) (names : List String) (c : Candidate) : Prop :=
  anyExcludes ⟨.none, names⟩ filter.rules = .ok false ∧ filter.limit.Holds (tree.sizeOf c.place)

/-- Where an enumeration yields files below a directory, those that are kept are listed in the order of their
paths. -/
theorem listing_below {wanted : List String → Prop} {filter : Filter} {found listed : List Candidate}
    (each : ∀ c, c ∈ found ↔ ∃ names, FileBelow tree base place names c ∧ wanted names)
    (retrievable : ∀ c ∈ found, c.Retrievable tree)
    (selected : select tree base filter (firstOfEach [] (sort found)) = .ok listed) :
    listed.Pairwise Precedes ∧
      ∀ c, c ∈ listed ↔ ∃ names, FileBelow tree base place names c ∧ wanted names ∧
        KeptBelow tree filter names c := by
  obtain ⟨ordered, kept⟩ := selected_listing retrievable selected
  refine ⟨ordered, fun c => ?_⟩
  have passing {names : List String} (below : FileBelow tree base place names c) :
      passes tree base filter c = .ok true ↔ KeptBelow tree filter names c := by
    rw [passes_eq_true, below.relativePath_eq, SizeLimit.admits_eq_true]
    rfl
  rw [kept]
  constructor
  · rintro ⟨least, passed⟩
    obtain ⟨names, below, want⟩ := (each c).mp least.member
    exact ⟨names, below, want, (passing below).mp passed⟩
  · rintro ⟨names, below, want, keeps⟩
    refine ⟨⟨(each c).mpr ⟨names, below, want⟩, fun d member same => ?_⟩, (passing below).mpr keeps⟩
    obtain ⟨others, other, -⟩ := (each d).mp member
    rw [other.eq below same]

/-- What is discovered in a directory are the headers below it that the filter keeps. -/
theorem discover_directory {text : String} {recurse : Bool} {filter : Filter} {listed : List Candidate}
    (leads : LeadsToDirectory tree text place) (discovered : discover tree text recurse filter = .ok listed) :
    listed.Pairwise Precedes ∧
      ∀ c, c ∈ listed ↔ ∃ names, FileBelow tree (Path.ofString text) place names c ∧
        (isHeaderName names = true ∧ (recurse = true ∨ names.length = 1)) ∧ KeptBelow tree filter names c := by
  obtain ⟨root, found, enumerated, selected⟩ := discover_eq_ok.mp discovered
  have retrievable := retrievable_enumerate enumerated
  rcases enumerate_cases enumerated with
    ⟨other, led, file, -, -⟩ | ⟨other, led, -, rfl, headers⟩ | ⟨missing, -, -⟩
  · rw [leads.found, Except.ok.injEq, Option.some.injEq] at led
    rw [← led, Tree.isFile, Tree.contents?, leads.dir] at file
    exact absurd file (by simp)
  · rw [leads.found, Except.ok.injEq, Option.some.injEq] at led
    obtain rfl := led
    exact listing_below (mem_headersIn leads.located headers) retrievable selected
  · rw [leads.found] at missing
    simp at missing

/-- A header by its path from the working directory. -/
def headerAt (names : List String) : Candidate := ⟨⟨.none, names⟩, names⟩

end Discovery

end ComLayout
