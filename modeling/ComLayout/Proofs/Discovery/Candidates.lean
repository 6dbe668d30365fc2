import ComLayout.Discovery
import ComLayout.Proofs.Files.Following
import ComLayout.Proofs.Glob.Reaching

/-!
# What an enumeration yields

A pattern is enumerated as a file, as a directory or by its wildcards. In each case a candidate is a
file, and its path leads there and is read back from its spelling. So the spelling is a pattern that
leads to the same file alone. All candidates lie at or below the root of the enumeration.
-/

namespace ComLayout

/-- A candidate that its path leads to: the path is read back from its spelling, and there is a file. -/
structure Candidate.Retrievable (tree : Tree) (c : Candidate) : Prop where
  readable : c.path.Readable
  found : tree.find? c.path = .ok (some c.place)
  file : tree.isFile c.place = true

namespace Discovery

open Glob

/-- A candidate at a path is a file to which the path leads. -/
theorem candidate?_eq_ok {tree : Tree} {path : Path} {found : Option Candidate}
    (looked : candidate? tree path = .ok found) (c : Candidate) :
    found = some c ↔ c.path = path ∧ tree.find? path = .ok (some c.place) ∧ tree.isFile c.place = true := by
  rw [candidate?, bind_eq_ok] at looked
  obtain ⟨entry, leads, kept⟩ := looked
  rw [← Except.ok.inj kept, leads, Option.map_eq_some_iff]
  constructor
  · rintro ⟨place, within, rfl⟩
    obtain ⟨rfl, file⟩ := Option.filter_eq_some_iff.mp within
    exact ⟨rfl, rfl, file⟩
  · rintro ⟨rfl, same, file⟩
    rw [Except.ok.inj same]
    exact ⟨c.place, by simp [file], rfl⟩

/-- The files at some paths are the candidates at one of them each. -/
theorem mem_filesAt {tree : Tree} {paths : List Path} {cs : List Candidate}
    (found : filesAt tree paths = .ok cs) (c : Candidate) :
    c ∈ cs ↔ c.path ∈ paths ∧ tree.find? c.path = .ok (some c.place) ∧ tree.isFile c.place = true := by
  induction paths generalizing cs with
  | nil =>
    obtain rfl := Except.ok.inj found
    simp
  | cons path rest inductionHypothesis =>
    rw [filesAt, bind_eq_ok] at found
    obtain ⟨candidate, first, found⟩ := found
    obtain ⟨others, later, listed⟩ := bind_eq_ok.mp found
    obtain rfl := Except.ok.inj listed
    rw [List.mem_append, Option.mem_toList, candidate?_eq_ok first, inductionHypothesis later, List.mem_cons]
    constructor
    · rintro (⟨rfl, leads⟩ | ⟨among, leads⟩)
      · exact ⟨.inl rfl, leads⟩
      · exact ⟨.inr among, leads⟩
    · rintro ⟨rfl | among, leads⟩
      · exact .inl ⟨rfl, leads⟩
      · exact .inr ⟨among, leads⟩

/-- The files at readable paths are retrievable. -/
theorem retrievable_filesAt {tree : Tree} {paths : List Path} {cs : List Candidate}
    (readable : ∀ path ∈ paths, path.Readable) (found : filesAt tree paths = .ok cs) :
    ∀ c ∈ cs, c.Retrievable tree := by
  intro c member
  obtain ⟨among, leads, file⟩ := (mem_filesAt found c).mp member
  exact ⟨readable c.path among, leads, file⟩

/-- The headers below a directory are listed if recursion comes to no directory that is too deep. -/
theorem headersIn_eq_ok {tree : Tree} {base : Path} {place : Location} {recurse : Bool} {found : List Candidate} :
    headersIn tree base place recurse = .ok found ↔
      (recurse && (tree.below place).any (tree.sinks place)) = false ∧
        filesAt tree (((tree.below place).filter (isVisited tree place recurse)).map base.append) = .ok found := by
  unfold headersIn
  split
  next deep => simp [deep]
  next shallow => simp [shallow]

/-- An enumeration is that of a file, of a directory or of a pattern with wildcards. -/
theorem enumerate_cases {tree : Tree} {pattern : String} {recurse : Bool} {root : Path}
    {cs : List Candidate} (enumerated : enumerate tree pattern recurse = .ok (root, cs)) :
    (∃ place, tree.find? (Path.ofString pattern) = .ok (some place) ∧ tree.isFile place = true ∧
      root = (Path.ofString pattern).parent ∧ cs = [⟨Path.ofString pattern, place⟩]) ∨
    (∃ place, tree.find? (Path.ofString pattern) = .ok (some place) ∧ tree.isFile place = false ∧
      root = Path.ofString pattern ∧ headersIn tree root place recurse = .ok cs) ∨
    (tree.find? (Path.ofString pattern) = .ok none ∧ root = fixedRoot pattern ∧
      filesMatching tree pattern recurse = .ok cs) := by
  rw [enumerate, bind_eq_ok] at enumerated
  obtain ⟨entry, looked, result⟩ := enumerated
  rw [looked]
  cases entry with
  | none =>
    obtain ⟨reached, matching, result⟩ := bind_eq_ok.mp result
    obtain ⟨rfl, rfl⟩ := Prod.mk.inj (Except.ok.inj result)
    exact .inr (.inr ⟨rfl, rfl, matching⟩)
  | some place =>
    cases file : tree.isFile place with
    | true =>
      simp only [file, if_true, Except.ok.injEq, Prod.mk.injEq] at result
      obtain ⟨rfl, rfl⟩ := result
      exact .inl ⟨place, rfl, file, rfl, rfl⟩
    | false =>
      simp only [file, Bool.false_eq_true, if_false] at result
      obtain ⟨headers, below, result⟩ := bind_eq_ok.mp result
      obtain ⟨rfl, rfl⟩ := Prod.mk.inj (Except.ok.inj result)
      exact .inr (.inl ⟨place, rfl, file, rfl, below⟩)

/-- What an enumeration yields is retrievable. -/
theorem retrievable_enumerate {tree : Tree} {pattern : String} {recurse : Bool} {root : Path}
    {cs : List Candidate} (enumerated : enumerate tree pattern recurse = .ok (root, cs)) :
    ∀ c ∈ cs, c.Retrievable tree := by
  have read : (Path.ofString pattern).Readable := Path.readable_ofString pattern
  rcases enumerate_cases enumerated with
    ⟨place, found, file, rfl, rfl⟩ | ⟨place, found, directory, rfl, below⟩ | ⟨missing, rfl, matching⟩
  · intro c member
    rw [List.mem_singleton.mp member]
    exact ⟨read, found, file⟩
  · apply retrievable_filesAt _ (headersIn_eq_ok.mp below).2
    intro path member
    obtain ⟨names, among, rfl⟩ := List.mem_map.mp member
    exact read.append fun name inside =>
      component_of_isEntryName (Tree.isEntryName_of_mem_below (List.mem_filter.mp among).1 name inside)
  · rw [filesMatching, bind_eq_ok] at matching
    obtain ⟨reached, expanded, listed⟩ := matching
    apply retrievable_filesAt _ listed
    intro path member
    obtain ⟨r, among, rfl⟩ := List.mem_map.mp member
    exact readable_expand expanded r among

/-- The path to a file has a name: without names it leads to the root or out of the tree. -/
theorem names_ne_nil {tree : Tree} {c : Candidate} (retrievable : c.Retrievable tree) :
    c.path.names ≠ [] := by
  intro nameless
  obtain ⟨located, -⟩ := Tree.find?_eq_some.mp retrievable.found
  have followed := (Tree.locate_eq_ok located).2
  rw [nameless] at followed
  have root : c.place = [] := (Except.ok.inj followed).symm
  have directory : tree.isDir c.place = false := tree.isDir_of_isFile c.place retrievable.file
  rw [root, tree.isDir_root] at directory
  exact Bool.noConfusion directory

/-- What an enumeration yields lies at or below its root. -/
theorem under_root {tree : Tree} {pattern : String} {recurse : Bool} {root : Path} {cs : List Candidate}
    (enumerated : enumerate tree pattern recurse = .ok (root, cs)) :
    ∀ c ∈ cs, ∃ names, c.path = root.append names := by
  have retrievable := retrievable_enumerate enumerated
  rcases enumerate_cases enumerated with
    ⟨place, found, file, rfl, rfl⟩ | ⟨place, found, directory, rfl, below⟩ | ⟨missing, rfl, matching⟩
  · intro c member
    obtain rfl := List.mem_singleton.mp member
    have named : (Path.ofString pattern).names ≠ [] := names_ne_nil (retrievable _ member)
    exact ⟨[(Path.ofString pattern).name], by simp [Path.append, Path.parent, ← Path.names_eq_append named]⟩
  · intro c member
    obtain ⟨names, -, appended⟩ := List.mem_map.mp ((mem_filesAt (headersIn_eq_ok.mp below).2 c).mp member).1
    exact ⟨names, appended.symm⟩
  · intro c member
    rw [filesMatching, bind_eq_ok] at matching
    obtain ⟨reached, expanded, listed⟩ := matching
    obtain ⟨r, among, spelled⟩ := List.mem_map.mp ((mem_filesAt listed c).mp member).1
    obtain ⟨anchored, names, onward, -⟩ := leadsOn_expand expanded r among
    exact ⟨names, by rw [← spelled, Reached.path, Path.append, onward, anchored]⟩

/-- A header that a pattern names, or that lies below the fixed root of the pattern. The only other
header is a file that is the fixed root itself, to which wildcards that stand for nothing lead back. -/
def LiesBelow (pattern : String) (c : Candidate) : Prop :=
  c.path = Path.ofString pattern ∨ c.path ≠ fixedRoot pattern

/-- Such a header is not the root of the enumeration. -/
theorem ne_root {tree : Tree} {pattern : String} {recurse : Bool} {root : Path} {cs : List Candidate}
    (enumerated : enumerate tree pattern recurse = .ok (root, cs)) (c : Candidate) (member : c ∈ cs)
    (below : LiesBelow pattern c) : c.path ≠ root := by
  have retrievable : c.Retrievable tree := retrievable_enumerate enumerated c member
  rcases enumerate_cases enumerated with
    ⟨place, found, file, rfl, rfl⟩ | ⟨place, found, directory, rfl, listed⟩ | ⟨missing, rfl, matching⟩
  · obtain rfl := List.mem_singleton.mp member
    exact Path.ne_parent (names_ne_nil retrievable)
  · obtain ⟨among, -⟩ := (mem_filesAt (headersIn_eq_ok.mp listed).2 c).mp member
    obtain ⟨names, within, appended⟩ := List.mem_map.mp among
    have filled : names ≠ [] := (Tree.mem_below.mp (List.mem_filter.mp within).1).1
    intro same
    rw [← appended] at same
    exact filled (List.append_right_eq_self.mp (congrArg Path.names same))
  · rcases below with named | apart
    · have found := retrievable.found
      rw [named, missing] at found
      simp at found
    · exact apart

end Discovery

end ComLayout
