import ComLayout.Proofs.Discovery.Candidates
import ComLayout.Proofs.Glob.Parts

/-!
# What a filter keeps

The exclusion rules are applied to the path of a header relative to the root of the enumeration, which
depends on the pattern. A rule that excludes a path without anchor excludes every path that ends in it,
because a pattern without anchor matches from the end. So what is kept by its longer path is kept by each of
its ends, down to its name. What is discovered was enumerated and is kept.
-/

namespace ComLayout

namespace Glob

/-- A path ends in another, which has no anchor. -/
structure EndsIn (path tail : Path) : Prop where
  free : tail.anchor = .none
  behind : tail.parts <:+ path.parts

/-- A pattern that matches a path matches what ends in it. -/
theorem matchesParts_of_endsIn {pattern path tail : Path} (ends : EndsIn path tail)
    (matched : matchesParts pattern tail = true) : matchesParts pattern path = true := by
  unfold matchesParts at matched ⊢
  split at matched
  next relative =>
    rw [if_pos relative]
    obtain ⟨ending, within, each⟩ := (matchesTail_iff _ _).mp matched
    exact (matchesTail_iff _ _).mpr ⟨ending, within.trans ends.behind, each⟩
  next anchored => simp [ends.free, anchored] at matched

/-- What is not matched is not matched by an end of it. -/
theorem matchesPath_of_endsIn {pattern : String} {path tail : Path} (ends : EndsIn path tail)
    (unmatched : matchesPath pattern path = .ok false) : matchesPath pattern tail = .ok false := by
  simp only [matchesPath] at unmatched ⊢
  split at unmatched
  next => simp at unmatched
  next filled =>
    have longer : matchesParts (Path.ofString pattern) path = false := Except.ok.inj unmatched
    have shorter : matchesParts (Path.ofString pattern) tail = false := by
      by_contra matched
      rw [Bool.not_eq_false] at matched
      rw [matchesParts_of_endsIn ends matched] at longer
      exact Bool.noConfusion longer
    rw [if_neg filled, shorter]

/-- A rule that does not exclude a path excludes no end of it. -/
theorem excludes_of_endsIn {rule : Rule} {path tail : Path} (ends : EndsIn path tail)
    (kept : rule.excludes path = .ok false) : rule.excludes tail = .ok false := by
  cases rule with
  | malformed misfit => simp [Rule.excludes] at kept
  | glob pattern =>
    rw [Rule.excludes, bind_eq_ok] at kept
    obtain ⟨matched, first, second⟩ := kept
    cases matched with
    | true => simp at second
    | false =>
      rw [Rule.excludes, bind_eq_ok]
      refine ⟨false, matchesPath_of_endsIn ends first, ?_⟩
      simp only [Bool.false_eq_true, if_false] at second ⊢
      split
      next starred =>
        rw [if_pos starred] at second
        exact matchesPath_of_endsIn ends second
      next => rfl

/-- Nothing is excluded exactly if no rule excludes it. -/
theorem anyExcludes_eq_false_iff {rules : List Rule} {path : Path} :
    anyExcludes path rules = .ok false ↔ ∀ rule ∈ rules, rule.excludes path = .ok false := by
  induction rules with
  | nil => simp [anyExcludes]
  | cons first rest inductionHypothesis =>
    rw [List.forall_mem_cons, ← inductionHypothesis, anyExcludes, bind_eq_ok]
    constructor
    · rintro ⟨excluded, verdict, later⟩
      cases excluded with
      | true => simp at later
      | false => exact ⟨verdict, later⟩
    · rintro ⟨verdict, later⟩
      exact ⟨false, verdict, later⟩

/-- Rules that do not exclude a path exclude no end of it. -/
theorem anyExcludes_of_endsIn {rules : List Rule} {path tail : Path} (ends : EndsIn path tail)
    (kept : anyExcludes path rules = .ok false) : anyExcludes tail rules = .ok false :=
  anyExcludes_eq_false_iff.mpr fun rule member =>
    excludes_of_endsIn ends (anyExcludes_eq_false_iff.mp kept rule member)

/-- The path of a file name on its own. -/
def ownName (path : Path) : Path := ⟨.none, [path.name]⟩

/-- A path ends in its own name. -/
theorem endsIn_ownName {path : Path} (named : path.names ≠ []) : EndsIn path (ownName path) := by
  refine ⟨rfl, ?_⟩
  have ends : (ownName path).parts <:+ path.names :=
    ⟨path.names.dropLast, (Path.names_eq_append named).symm⟩
  rw [Path.parts.eq_def path]
  split
  · exact ends
  · exact ends.trans (List.suffix_cons _ _)

end Glob

namespace Discovery

open Glob

/-- From its parent a path is its own name. -/
theorem relativePath_parent {path : Path} (named : path.names ≠ []) :
    relativePath path.parent path = ownName path := by
  have ends : path.names = path.names.dropLast ++ [path.name] := Path.names_eq_append named
  have front : path.names.dropLast.isPrefixOf path.names = true := by
    rw [List.isPrefixOf_iff_prefix]
    exact List.dropLast_prefix path.names
  have behind : path.names.drop path.names.dropLast.length = [path.name] := by
    conv_lhs => rw [ends]
    simp
  have under : path.parent.under? path = some [path.name] := by
    simp only [Path.under?, Path.parent, front, and_self, if_true, behind]
  rw [relativePath, under]
  rfl

/-- A relative path has the own name of the path, unless that is the root. -/
theorem ownName_relativePath {root path : Path} (named : path.names ≠ []) (apart : path ≠ root) :
    (relativePath root path).names ≠ [] ∧ ownName (relativePath root path) = ownName path := by
  unfold relativePath Path.under?
  split
  next names under =>
    split at under
    next leads =>
      obtain rfl := Option.some.inj under
      obtain ⟨sameAnchor, front⟩ := leads
      obtain ⟨rest, split⟩ := List.isPrefixOf_iff_prefix.mp front
      have behind : path.names.drop root.names.length = rest := by rw [← split, List.drop_left]
      have filled : rest ≠ [] := by
        rintro rfl
        rw [List.append_nil] at split
        have same : root = path := by
          cases root
          cases path
          simp_all
        exact apart same.symm
      rw [behind]
      refine ⟨filled, ?_⟩
      simp [ownName, Path.name, ← split, List.getLast?_append, List.getLast?_eq_some_getLast filled]
    next => simp at under
  next => exact ⟨named, rfl⟩

/-- What passes the filter is excluded by no rule and lies within the limit. -/
theorem passes_eq_true {tree : Tree} {root : Path} {filter : Filter} {c : Candidate} :
    passes tree root filter c = .ok true ↔
      anyExcludes (relativePath root c.path) filter.rules = .ok false ∧
        filter.limit.admits (tree.sizeOf c.place) = .ok true := by
  cases excluded : anyExcludes (relativePath root c.path) filter.rules with
  | error fault => simp [passes, excluded, bind, Except.bind, Except.mapError]
  | ok verdict => cases verdict <;> simp [passes, excluded, bind, Except.bind, Except.mapError]

/-- What is selected are the candidates that pass the filter, in their order. -/
theorem mem_select {tree : Tree} {root : Path} {filter : Filter} {cs kept : List Candidate}
    (selected : select tree root filter cs = .ok kept) :
    kept.Sublist cs ∧ ∀ c, c ∈ kept ↔ c ∈ cs ∧ passes tree root filter c = .ok true := by
  induction cs generalizing kept with
  | nil =>
    obtain rfl := Except.ok.inj selected
    simp
  | cons first rest inductionHypothesis =>
    rw [select, bind_eq_ok] at selected
    obtain ⟨verdict, passed, selected⟩ := selected
    obtain ⟨others, later, listed⟩ := bind_eq_ok.mp selected
    obtain ⟨sublist, each⟩ := inductionHypothesis later
    obtain rfl := Except.ok.inj listed
    cases verdict with
    | true =>
      refine ⟨sublist.cons_cons first, fun c => ?_⟩
      rw [if_pos rfl, List.mem_cons, List.mem_cons, each]
      constructor
      · rintro (rfl | ⟨among, kept⟩)
        · exact ⟨.inl rfl, passed⟩
        · exact ⟨.inr among, kept⟩
      · rintro ⟨rfl | among, kept⟩
        · exact .inl rfl
        · exact .inr ⟨among, kept⟩
    | false =>
      refine ⟨sublist.cons first, fun c => ?_⟩
      rw [if_neg Bool.false_ne_true, List.mem_cons, each]
      constructor
      · rintro ⟨among, kept⟩
        exact ⟨.inr among, kept⟩
      · rintro ⟨rfl | among, kept⟩
        · rw [passed] at kept
          exact absurd (Except.ok.inj kept) Bool.false_ne_true
        · exact ⟨among, kept⟩

/-- The first candidates for each file are candidates, in their order. -/
theorem firstOfEach_sublist (seen : List Location) (cs : List Candidate) :
    (firstOfEach seen cs).Sublist cs := by
  induction cs generalizing seen with
  | nil => simp [firstOfEach]
  | cons c rest inductionHypothesis =>
    unfold firstOfEach
    split
    next => exact (inductionHypothesis seen).cons c
    next => exact (inductionHypothesis (c.place :: seen)).cons_cons c

/-- What is discovered is selected from the first candidates for each file that is enumerated. -/
theorem discover_eq_ok {tree : Tree} {pattern : String} {recurse : Bool} {filter : Filter}
    {cs : List Candidate} : discover tree pattern recurse filter = .ok cs ↔
      ∃ root found, enumerate tree pattern recurse = .ok (root, found) ∧
        select tree root filter (firstOfEach [] (sort found)) = .ok cs := by
  simp only [discover, bind_eq_ok, mapError_eq_ok, Prod.exists]

/-- What is discovered was enumerated and passes the filter. -/
theorem mem_discover {tree : Tree} {pattern : String} {recurse : Bool} {filter : Filter}
    {cs : List Candidate} (discovered : discover tree pattern recurse filter = .ok cs) :
    ∃ root found, enumerate tree pattern recurse = .ok (root, found) ∧
      ∀ c ∈ cs, c ∈ found ∧ passes tree root filter c = .ok true := by
  obtain ⟨root, found, enumerated, selected⟩ := discover_eq_ok.mp discovered
  refine ⟨root, found, enumerated, fun c member => ?_⟩
  obtain ⟨among, passed⟩ := ((mem_select selected).2 c).mp member
  exact ⟨(sort_perm found).mem_iff.mp ((firstOfEach_sublist [] _).subset among), passed⟩

/-- What is enumerated in the order of the paths stays in that order. -/
theorem discover_of_ordered {tree : Tree} {pattern : String} {recurse : Bool} {root : Path}
    {found : List Candidate} (enumerated : enumerate tree pattern recurse = .ok (root, found))
    (ordered : found.Pairwise fun c d => (!d.path.before c.path) = true) (filter : Filter) :
    discover tree pattern recurse filter = select tree root filter (firstOfEach [] found) := by
  have sorted : sort found = found := List.mergeSort_of_pairwise ordered
  simp only [discover, enumerated, Except.mapError, bind, Except.bind, sorted]

end Discovery

end ComLayout
