import ComLayout.Proofs.Discovery.Filtering

/-!
# All candidates lie below the root

The root of an enumeration is read off the pattern alone, while the candidates come from looking up a file,
from listing a directory, or from expanding wildcards. In each case the path of a candidate begins with the parts
of the root, so there is a way to it from the root, and the exclusion rules are always applied to that way.
What would be done with a path without such a way makes no difference to what is discovered.
-/

namespace ComLayout

namespace Path

/-- The parts of what is appended to a path come after its own. -/
theorem parts_append (p : Path) (names : List String) : (p.append names).parts = p.parts ++ names := by
  unfold parts append
  split <;> rfl

end Path

namespace Discovery

open Glob

variable {tree : Tree} {root : Path} {filter : Filter} {c : Candidate} {found : List Candidate}

/-- A path that begins with the parts of a root, and that the root and the way from there make up. -/
structure Beneath (root path : Path) : Prop where
  leading : root.parts <+: path.parts
  way : ∃ names, root.under? path = some names ∧ path = root.append names

/-- What is appended to a root lies beneath it. -/
theorem beneath_append (root : Path) (names : List String) : Beneath root (root.append names) :=
  ⟨Path.parts_append root names ▸ List.prefix_append root.parts names, names, Path.under?_append root names, rfl⟩

/-- What is done with a path to which there is no way from the root: another path takes its place, or nothing is
discovered. -/
abbrev Fallback := Path → Except DiscoveryFault Path

/-- The path to which the exclusion rules are applied, where those without a way from the root are left to a
fallback. -/
def relativePathOr (fallback : Fallback) (root path : Path) : Except DiscoveryFault Path :=
  match root.under? path with
  | some names => .ok ⟨.none, names⟩
  | none => fallback path

/-- Whether a candidate passes the filter, with a fallback. -/
def passesOr (fallback : Fallback) (tree : Tree) (root : Path) (filter : Filter) (c : Candidate) :
    Except DiscoveryFault Bool := do
  let relative ← relativePathOr fallback root c.path
  if ← (anyExcludes relative filter.rules).mapError .rule then .ok false
  else filter.limit.admits (tree.sizeOf c.place)

/-- The candidates that pass; they are tried in order. -/
def selectBy (passing : Candidate → Except DiscoveryFault Bool) :
    List Candidate → Except DiscoveryFault (List Candidate)
  | [] => .ok []
  | c :: rest => do
    let kept ← passing c
    let others ← selectBy passing rest
    .ok (if kept then c :: others else others)

/-- The headers that a pattern leads to, with a fallback. -/
def discoverOr (fallback : Fallback) (tree : Tree) (pattern : String) (recurse : Bool) (filter : Filter) :
    Except DiscoveryFault (List Candidate) := do
  let (root, found) ← (enumerate tree pattern recurse).mapError .file
  selectBy (passesOr fallback tree root filter) (firstOfEach [] (sort found))

/-- The fallback of discovery is to apply the rules to the path as it is. -/
theorem passesOr_ok (tree : Tree) (root : Path) (filter : Filter) (c : Candidate) :
    passesOr .ok tree root filter c = passes tree root filter c := by
  unfold passesOr passes relativePathOr relativePath
  cases root.under? c.path <;> rfl

/-- Beneath the root no fallback is needed. -/
theorem passesOr_of_beneath (fallback : Fallback) (beneath : Beneath root c.path) :
    passesOr fallback tree root filter c = passesOr .ok tree root filter c := by
  obtain ⟨names, way, -⟩ := beneath.way
  unfold passesOr relativePathOr
  rw [way]

/-- What is selected depends only on which of the candidates pass. -/
theorem selectBy_congr {first second : Candidate → Except DiscoveryFault Bool}
    (same : ∀ c ∈ found, first c = second c) : selectBy first found = selectBy second found := by
  induction found with
  | nil => rfl
  | cons c rest inductionHypothesis =>
    have later := inductionHypothesis fun d member => same d (List.mem_cons_of_mem c member)
    rw [selectBy, selectBy, same c List.mem_cons_self, later]

/-- Selecting those that pass the filter is what discovery does. -/
theorem selectBy_passes (tree : Tree) (root : Path) (filter : Filter) (cs : List Candidate) :
    selectBy (passes tree root filter) cs = select tree root filter cs := by
  induction cs with
  | nil => rfl
  | cons c rest inductionHypothesis => rw [selectBy, select, inductionHypothesis]

/-- Where all candidates lie beneath the root, what is selected does not depend on the fallback. -/
theorem selectBy_passesOr (fallback : Fallback) (beneath : ∀ c ∈ found, Beneath root c.path) :
    selectBy (passesOr fallback tree root filter) found = select tree root filter found := by
  have same : ∀ c ∈ found, passesOr fallback tree root filter c = passes tree root filter c := by
    intro c member
    rw [passesOr_of_beneath fallback (beneath c member), passesOr_ok]
  rw [selectBy_congr same, selectBy_passes]

/-- What an enumeration yields lies beneath its root. -/
theorem beneath_enumerate {pattern : String} {recurse : Bool}
    (enumerated : enumerate tree pattern recurse = .ok (root, found)) : ∀ c ∈ found, Beneath root c.path := by
  intro c member
  obtain ⟨names, appended⟩ := under_root enumerated c member
  rw [appended]
  exact beneath_append root names

/-- No candidate is found outside the root of the enumeration.

Whatever a pattern spells, with or without recursion, the path of each candidate begins with the parts of the root
that comes with the candidates. There is a way from the root to the candidate, and behind the root it makes up the
path. So for no pattern and no filter it matters what is done with paths to which there is no way: discovery may as
well fail there.

For a file the root is the path itself, and for a directory each candidate is spelled by the directory and the names
that lead on. Wildcards are expanded component by component, and the components before the first with a wildcard are
the root; the others only append names to a path. Sorting and leaving out further spellings bring in no candidate that
was not enumerated. -/
theorem candidates_lie_beneath_root (tree : Tree) (pattern : String) (recurse : Bool) :
    (∀ root found, enumerate tree pattern recurse = .ok (root, found) → ∀ c ∈ found,
      root.parts <+: c.path.parts ∧ ∃ names, root.under? c.path = some names ∧ c.path = root.append names) ∧
    ∀ filter fallback, discoverOr fallback tree pattern recurse filter = discover tree pattern recurse filter := by
  constructor
  · intro root found enumerated c member
    have beneath := beneath_enumerate enumerated c member
    exact ⟨beneath.leading, beneath.way⟩
  · intro filter fallback
    unfold discoverOr discover
    cases enumerated : enumerate tree pattern recurse with
    | error fault => rfl
    | ok result =>
      obtain ⟨root, found⟩ := result
      have beneath : ∀ c ∈ firstOfEach [] (sort found), Beneath root c.path := fun c member =>
        beneath_enumerate enumerated c ((sort_perm found).mem_iff.mp ((firstOfEach_sublist [] _).subset member))
      exact selectBy_passesOr fallback beneath

/-- A house with a header in each of two rooms. -/
def house : Tree :=
  ⟨[], [(["house", "hall", "map.h"], "int map;\n".toUTF8), (["house", "study", "mop.h"], "int mop;\n".toUTF8)],
    by decide⟩

/-- A way around in the house, with dots, a way back and doubled slashes. -/
def roundabout : String := ".//house/hall/.././/[r-t]*/./m?p.h"

/-- The header in the study, by way of the hall. -/
def mopByHall : Candidate := ⟨⟨.none, ["house", "hall", "..", "study", "mop.h"]⟩, ["house", "study", "mop.h"]⟩

/-- The way around leads to a header from the path in front of its first wildcard. -/
theorem house_beneath_root :
    enumerate house roundabout true = .ok (⟨.none, ["house", "hall", ".."]⟩, [mopByHall]) ∧
      ["house", "hall", ".."] <+: mopByHall.path.parts ∧
      Path.under? ⟨.none, ["house", "hall", ".."]⟩ mopByHall.path = some ["study", "mop.h"] ∧
      ∀ fallback, discoverOr fallback house roundabout true Filter.standard = .ok [mopByHall] := by
  have enumerated : enumerate house roundabout true = .ok (⟨.none, ["house", "hall", ".."]⟩, [mopByHall]) := by
    decide +kernel
  have discovered : discover house roundabout true Filter.standard = .ok [mopByHall] := by
    rw [discover_of_ordered enumerated (List.pairwise_singleton _ _)]
    decide +kernel
  obtain ⟨beneath, same⟩ := candidates_lie_beneath_root house roundabout true
  obtain ⟨leading, names, way, whole⟩ := beneath _ _ enumerated _ (List.mem_singleton_self _)
  have rest : ["study", "mop.h"] = names := by simpa [mopByHall, Path.append] using congrArg Path.names whole
  exact ⟨enumerated, leading, rest ▸ way, fun fallback => (same Filter.standard fallback).trans discovered⟩

end Discovery

end ComLayout
