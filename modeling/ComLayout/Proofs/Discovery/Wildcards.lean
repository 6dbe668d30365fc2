import ComLayout.Proofs.Discovery.Directories

/-!
# A directory and its wildcards

The headers of a directory can also be asked for by wildcards behind its path: `*.h` for those directly in it,
and `**/*.h` with recursion for those at any depth. Wildcards pass over hidden names, and the directory does
not; apart from that both lists are the same. The wildcards are expanded from the directory, so that is the
root to which the exclusion rules refer in either case.
-/

namespace ComLayout

open Glob

namespace Tree

/-- No name in the tree holds a wildcard. -/
def Plain (t : Tree) : Prop := ∀ listed ∈ t.listed, ∀ name ∈ listed, hasWildcard name = false

variable {t : Tree}

/-- In a plain tree a location in use is spelled without wildcards. -/
theorem Plain.of_exists (plain : t.Plain) {place : Location} (found : t.exists? place = true) :
    ∀ name ∈ place, hasWildcard name = false := by
  intro name member
  rcases exists_iff.mp found with rfl | ⟨listed, among, part⟩
  · exact absurd member List.not_mem_nil
  · exact plain listed among name (part.subset member)

/-- In a plain tree names that are followed to a location in use hold no wildcards. -/
theorem Plain.of_follow (plain : t.Plain) {place last : Location} {names : List String}
    (followed : t.follow place names = .ok last) (found : t.exists? last = true) :
    ∀ name ∈ names, hasWildcard name = false := by
  induction names generalizing place with
  | nil => exact fun name member => absurd member List.not_mem_nil
  | cons first rest inductionHypothesis =>
    obtain ⟨-, next, entered, onward⟩ := follow_cons_eq_ok.mp followed
    have between : t.exists? next = true := exists_of_follow onward found
    obtain ⟨-, rfl⟩ := enter_eq_ok entered
    intro name member
    rcases List.mem_cons.mp member with rfl | later
    · by_cases up : name = ".."
      · rw [up]
        decide
      · rw [if_neg up] at between
        exact plain.of_exists between name (by simp)
    · exact inductionHypothesis onward name later

/-- In a plain tree the path to a location in use is spelled without wildcards. -/
theorem Plain.of_find (plain : t.Plain) {p : Path} {place : Location} (found : t.find? p = .ok (some place)) :
    ∀ name ∈ p.names, hasWildcard name = false := by
  obtain ⟨located, inUse⟩ := find?_eq_some.mp found
  exact plain.of_follow (locate_eq_ok located).2 inUse

end Tree

namespace Path

/-- A text that spells a path without anchor is not made of slashes. -/
theorem exists_ne_slash {text : String} (free : (ofString text).anchor = .none) (filled : text ≠ "") :
    ∃ c ∈ text.toList, c ≠ '/' := by
  cases spelled : text.toList with
  | nil => exact absurd (String.toList_inj.mp (by simpa using spelled)) filled
  | cons c rest =>
    refine ⟨c, List.mem_cons_self, ?_⟩
    rintro rfl
    have anchored : anchorOf ('/' :: rest) = .none := spelled ▸ free
    unfold anchorOf at anchored
    split at anchored <;> simp_all

end Path

namespace Glob

variable {text back : String}

/-- A pattern that begins with a wildcard. -/
def BeginsWild (back : String) : Prop :=
  ∃ first rest, components back = first :: rest ∧ hasWildcard first = true

/-- The names of a pattern that begins with a wildcard begin with it. -/
theorem BeginsWild.exists_names (wild : BeginsWild back) :
    ∃ first rest, (Path.ofString back).names = first :: rest ∧ hasWildcard first = true := by
  obtain ⟨first, rest, parts, wildFirst⟩ := wild
  have named : Path.isComponent first.toList = true := by
    by_contra unnamed
    rw [hasWildcard_of_unnamed (by simpa using unnamed)] at wildFirst
    exact Bool.noConfusion wildFirst
  refine ⟨first, rest.filter fun component => Path.isComponent component.toList, ?_, wildFirst⟩
  rw [← filter_components, parts]
  exact List.filter_cons_of_pos named

/-- Behind a path without wildcards a pattern is expanded from where it begins with one. -/
theorem behindRoot_slash (plain : ∀ name ∈ (Path.ofString text).names, hasWildcard name = false)
    (wild : BeginsWild back) : behindRoot (text ++ "/" ++ back) = components back := by
  have passed : ∀ component ∈ ((Path.pieces text.toList).map String.ofList).filter (· != ""),
      (!hasWildcard component) = true := by
    intro component member
    obtain ⟨piece, among, rfl⟩ := List.mem_map.mp (List.mem_filter.mp member).1
    cases named : Path.isComponent piece with
    | false => rw [hasWildcard_of_unnamed (by simpa using named), Bool.not_false]
    | true =>
      have name : String.ofList piece ∈ (Path.ofString text).names :=
        List.mem_map_of_mem (List.mem_filter.mpr ⟨among, named⟩)
      rw [plain _ name, Bool.not_false]
  rw [behindRoot, components_slash, List.dropWhile_append_of_pos passed]
  obtain ⟨first, rest, parts, wildFirst⟩ := wild
  simp [parts, wildFirst]

/-- The fixed root of a path without wildcards and a pattern behind it that begins with one is the path. -/
theorem fixedRoot_slash (spelled : ∃ c ∈ text.toList, c ≠ '/')
    (plain : ∀ name ∈ (Path.ofString text).names, hasWildcard name = false) (wild : BeginsWild back) :
    fixedRoot (text ++ "/" ++ back) = Path.ofString text := by
  obtain ⟨first, rest, names, wildFirst⟩ := wild.exists_names
  have stopped : ((Path.ofString text).names ++ first :: rest).takeWhile (fun name => !hasWildcard name) =
      (Path.ofString text).names := by
    rw [List.takeWhile_append_of_pos (fun name member => by rw [plain name member, Bool.not_false])]
    simp [wildFirst]
  rw [fixedRoot, Path.ofString_behind spelled, names, Path.append]
  simp only [stopped]

end Glob

namespace Discovery

variable {tree : Tree} {text back : String} {place : Location} {recurse : Bool} {root : Path}
  {found : List Candidate}

/-- Where a pattern that begins with a wildcard stands behind the path of a directory, it is expanded from the
directory. -/
theorem enumerate_slash (leads : LeadsToDirectory tree text place) (plain : tree.Plain) (filled : text ≠ "")
    (wild : BeginsWild back)
    (enumerated : enumerate tree (text ++ "/" ++ back) recurse = .ok (root, found)) :
    root = Path.ofString text ∧
      filesAt tree ((expandSteps tree ((components back).map (Step.ofComponent recurse))
        [⟨(Path.ofString text).names, place⟩]).map Reached.path) = .ok found := by
  have plainText := plain.of_find leads.found
  have spelled := Path.exists_ne_slash leads.free filled
  have joined := Path.ofString_behind spelled back
  obtain ⟨first, rest, names, wildFirst⟩ := wild.exists_names
  have unfound (other : Location) : tree.find? (Path.ofString (text ++ "/" ++ back)) ≠ .ok (some other) := by
    intro leadsOn
    rw [plain.of_find leadsOn first (by simp [joined, names, Path.append])] at wildFirst
    exact Bool.noConfusion wildFirst
  rcases enumerate_cases enumerated with
    ⟨other, leadsOn, -⟩ | ⟨other, leadsOn, -⟩ | ⟨-, rfl, matching⟩
  · exact absurd leadsOn (unfound other)
  · exact absurd leadsOn (unfound other)
  · refine ⟨fixedRoot_slash spelled plainText wild, ?_⟩
    obtain ⟨reached, expanded, listed⟩ := bind_eq_ok.mp matching
    have anchored : (Path.ofString (text ++ "/" ++ back)).anchor = .none := by
      rw [joined]
      exact leads.free
    have filledBack : components back ≠ [] := by
      obtain ⟨first, rest, parts, -⟩ := wild
      simp [parts]
    have inUse : tree.exists? place = true := Tree.exists_of_isDir leads.dir
    rw [expand_eq, behindRoot_slash plainText wild, fixedRoot_slash spelled plainText wild] at expanded
    split at expanded
    · simp at expanded
    · rw [if_pos ⟨anchored, filledBack⟩, expandFrom_of_exists leads.located inUse] at expanded
      split at expanded
      · cases expanded
      · rw [Except.ok.inj expanded]
        exact listed

/-- The pattern of the names of headers. -/
def headerPattern : String := "*.h"

/-- The step for the pattern of the names of headers, which passes over hidden names. -/
def headerStep : Step := .wild false (piecesOf headerPattern)

/-- The pattern of the names of headers matches these. -/
theorem matchesPieces_headerPattern (name : String) :
    matchesPieces (piecesOf headerPattern) name.toList = isHeaderName [name] := by
  have pieces : piecesOf headerPattern = .star :: headerEnding.toList.map Piece.char := by decide
  rw [Bool.eq_iff_iff, pieces, matchesPieces_star]
  simp [isHeaderName]

variable {r s : Reached}

/-- As the last step it leads to what has such a name. -/
theorem mem_lead_headers : s ∈ headerStep.lead tree true r ↔
    tree.holdsDir r.path = true ∧ ∃ name, s = r.descend [name] ∧
      tree.exists? (r.place ++ [name]) = true ∧ isHidden name = false ∧ isHeaderName [name] = true := by
  rw [headerStep, mem_lead, Step.onward, mem_admitted, Reached.matching]
  simp only [List.mem_map, List.mem_filter, Tree.mem_children, matchesPieces_headerPattern, Bool.false_or,
    Bool.and_eq_true, Bool.not_eq_true', reduceCtorEq, false_and, false_or, true_or, and_true]
  constructor
  · rintro ⟨entered, name, ⟨found, visible, header⟩, rfl⟩
    exact ⟨entered, name, rfl, found, visible, header⟩
  · rintro ⟨entered, name, rfl, found, visible, header⟩
    exact ⟨entered, name, ⟨found, visible, header⟩, rfl⟩

/-- A step of recursion before others leads to the directories below that are not hidden. -/
theorem mem_lead_directories : s ∈ Step.deep.lead tree false r ↔
    s = r ∨ (tree.holdsDir r.path = true ∧ ∃ names, s = r.descend names ∧ names ∈ tree.below r.place ∧
      names.any isHidden = false ∧ tree.holdsDir (r.path.append names.dropLast) = true ∧
      tree.isDir (r.place ++ names) = true) := by
  rw [mem_lead, Step.onward, mem_admitted, Reached.visible]
  simp only [List.mem_map, List.mem_filter, Reached.sees, Bool.and_eq_true, Bool.not_eq_true']
  constructor
  · rintro (⟨-, same⟩ | ⟨entered, ⟨names, ⟨among, visible, held⟩, rfl⟩, dir⟩)
    · exact .inl same
    · exact .inr ⟨entered, names, rfl, among, visible, held, dir.resolve_left Bool.false_ne_true⟩
  · rintro (same | ⟨entered, names, rfl, among, visible, held, dir⟩)
    · exact .inl ⟨trivial, same⟩
    · exact .inr ⟨entered, ⟨names, ⟨among, visible, held⟩, rfl⟩, .inr dir⟩

/-- The names of a header to which wildcards lead: none of them is hidden, and without recursion there is
one. -/
structure Matched (recurse : Bool) (names : List String) : Prop where
  header : isHeaderName names = true
  reached : recurse = true ∨ names.length = 1
  visible : names.any isHidden = false

/-- The wildcards for the headers in a directory, or for those at any depth below it. -/
def headerWildcards (recurse : Bool) : String := if recurse then "**/" ++ headerPattern else headerPattern

/-- The wildcards for headers are wildcards from the beginning. -/
theorem beginsWild_headerWildcards (recurse : Bool) : BeginsWild (headerWildcards recurse) := by
  cases recurse with
  | false => exact ⟨headerPattern, [], by decide, by decide⟩
  | true => exact ⟨"**", [headerPattern], by decide, by decide⟩

/-- The steps of the wildcards for headers. -/
theorem steps_headerWildcards (recurse : Bool) :
    (components (headerWildcards recurse)).map (Step.ofComponent recurse) =
      if recurse then [.deep, headerStep] else [headerStep] := by
  cases recurse <;> decide

/-- The wildcards for headers lead from the directory, or from each directory below, to the headers in it. -/
theorem mem_reached {recurse : Bool} :
    s ∈ expandSteps tree ((components (headerWildcards recurse)).map (Step.ofComponent recurse)) [r] ↔
      ∃ u ∈ if recurse then Step.deep.lead tree false r else [r],
        s ∈ headerStep.lead tree true u := by
  rw [steps_headerWildcards]
  cases recurse <;> simp [expandSteps]

/-- The wildcards for headers lead to entries whose names they match. -/
theorem matched_of_reached {recurse : Bool}
    (reached : s ∈ expandSteps tree ((components (headerWildcards recurse)).map (Step.ofComponent recurse)) [r]) :
    ∃ names, s = r.descend names ∧ tree.exists? (r.place ++ names) = true ∧ Matched recurse names := by
  obtain ⟨u, among, led⟩ := mem_reached.mp reached
  obtain ⟨-, name, rfl, found, visible, header⟩ := mem_lead_headers.mp led
  have behind : ∃ front, u = r.descend front ∧ front.any isHidden = false ∧ (recurse = true ∨ front = []) := by
    cases recurse with
    | false =>
      obtain rfl := List.mem_singleton.mp among
      exact ⟨[], by simp, rfl, .inr rfl⟩
    | true =>
      rcases mem_lead_directories.mp among with rfl | ⟨-, front, rfl, -, seen, -, -⟩
      · exact ⟨[], by simp, rfl, .inl rfl⟩
      · exact ⟨front, rfl, seen, .inl rfl⟩
  obtain ⟨front, rfl, seen, reach⟩ := behind
  refine ⟨front ++ [name], by simp, by simpa using found, ?_, ?_, ?_⟩
  · rw [isHeaderName_append (by simp), header]
  · exact reach.imp_right fun none => by rw [none]; rfl
  · rw [List.any_append, seen]
    simpa using visible

variable {base : Path} {names : List String} {c : Candidate}

/-- The entry from which a directory is expanded has the path of the directory. -/
theorem path_start (located : tree.locate base = .ok place) : Reached.path ⟨base.names, place⟩ = base := by
  rw [Reached.path, ← (Tree.locate_eq_ok located).1]

/-- Recursion leads to each directory on the way to a file, as long as its names are not hidden. -/
theorem mem_lead_onTheWay {front : List String} (located : tree.locate base = .ok place)
    (below : FileBelow tree base place (front ++ names) c) (filled : names ≠ [])
    (visible : front.any isHidden = false) :
    Reached.descend ⟨base.names, place⟩ front ∈ Step.deep.lead tree false ⟨base.names, place⟩ := by
  rw [mem_lead_directories, path_start located]
  by_cases none : front = []
  · exact .inl (by rw [none, Reached.descend_nil])
  · have dir : tree.isDir place = true := Tree.isDir_of_exists below.exists (by simp [none])
    have held : tree.holdsDir base = true := by simpa [Tree.holdsDir, located] using dir
    have between : tree.isDir (place ++ front) = true := (below.onTheWay filled).2
    have among : front ∈ tree.below place := Tree.mem_below.mpr ⟨none, Tree.exists_of_isDir between⟩
    have above : tree.holdsDir (base.append front.dropLast) = true := by
      rw [← List.dropLast_concat_getLast none, List.append_assoc] at below
      exact (below.onTheWay (by simp)).1
    exact .inr ⟨held, front, rfl, among, visible, above, between⟩

/-- The wildcards for headers lead to every file below the directory whose names they match. -/
theorem reached_of_matched {recurse : Bool} (located : tree.locate base = .ok place)
    (below : FileBelow tree base place names c) (matched : Matched recurse names) :
    Reached.descend ⟨base.names, place⟩ names ∈
      expandSteps tree ((components (headerWildcards recurse)).map (Step.ofComponent recurse))
        [⟨base.names, place⟩] := by
  obtain ⟨header, reach, visible⟩ := matched
  rcases List.eq_nil_or_concat names with rfl | ⟨front, name, rfl⟩
  · exact Bool.noConfusion header
  · rw [List.concat_eq_append] at below header reach visible ⊢
    have single : [name] ≠ [] := List.cons_ne_nil name []
    obtain ⟨seen, shown⟩ : front.any isHidden = false ∧ isHidden name = false := by simpa using visible
    have among : Reached.descend ⟨base.names, place⟩ front ∈
        if recurse then Step.deep.lead tree false ⟨base.names, place⟩ else [⟨base.names, place⟩] := by
      cases recurse with
      | false =>
        have none : front = [] := by simpa using reach
        simp [none]
      | true => exact mem_lead_onTheWay located below single seen
    have held : tree.holdsDir (Reached.descend ⟨base.names, place⟩ front).path = true := by
      rw [Reached.path_descend, path_start located, (below.onTheWay single).1]
    have found : tree.exists? (place ++ front ++ [name]) = true := by simpa using below.exists
    have named : isHeaderName [name] = true := by rw [← header, isHeaderName_append single]
    have onward := mem_lead_headers.mpr ⟨held, name, rfl, found, shown, named⟩
    rw [Reached.descend_descend] at onward
    exact mem_reached.mpr ⟨_, among, onward⟩

/-- What the wildcards for headers yield behind the path of a directory: the files below it whose names they
match. The root of the enumeration is the directory. -/
theorem mem_enumerate_headerWildcards {recurse : Bool} {root : Path} {found : List Candidate}
    (leads : LeadsToDirectory tree text place) (plain : tree.Plain) (filled : text ≠ "")
    (enumerated : enumerate tree (text ++ "/" ++ headerWildcards recurse) recurse = .ok (root, found)) :
    root = Path.ofString text ∧ ∀ c, c ∈ found ↔
      ∃ names, FileBelow tree (Path.ofString text) place names c ∧ Matched recurse names := by
  obtain ⟨rfl, listed⟩ := enumerate_slash leads plain filled (beginsWild_headerWildcards recurse) enumerated
  refine ⟨rfl, fun c => ?_⟩
  rw [mem_filesAt listed, List.mem_map]
  constructor
  · rintro ⟨⟨s, reached, path⟩, leadsOn, file⟩
    obtain ⟨names, rfl, found, matched⟩ := matched_of_reached reached
    rw [Reached.path_descend, path_start leads.located] at path
    have down : ".." ∉ names := Tree.not_back_of_exists found
    exact ⟨names, fileBelow_of_path leads.located down path.symm leadsOn file, matched⟩
  · rintro ⟨names, below, matched⟩
    refine ⟨⟨_, reached_of_matched leads.located below matched, ?_⟩, below.found, below.file⟩
    rw [Reached.path_descend, path_start leads.located, below.path]

/-- A candidate that has a hidden name behind the path of a directory. -/
def isHiddenFrom (base : Path) (c : Candidate) : Bool := (relativePath base c.path).names.any isHidden

/-- A file below a directory is hidden from there exactly if one of the names on the way is. -/
theorem isHiddenFrom_eq (below : FileBelow tree base place names c) :
    isHiddenFrom base c = names.any isHidden := by
  rw [isHiddenFrom, below.relativePath_eq]

/-- The wildcards for headers list what the directory lists, apart from what is hidden from there. -/
theorem discover_headerWildcards {recurse : Bool} {filter : Filter} {visible all : List Candidate}
    (leads : LeadsToDirectory tree text place) (plain : tree.Plain) (filled : text ≠ "")
    (discoveredVisible : discover tree (text ++ "/" ++ headerWildcards recurse) recurse filter = .ok visible)
    (discoveredAll : discover tree text recurse filter = .ok all) :
    visible = all.filter fun c => !isHiddenFrom (Path.ofString text) c := by
  obtain ⟨root, found, enumerated, selected⟩ := discover_eq_ok.mp discoveredVisible
  obtain ⟨rfl, each⟩ := mem_enumerate_headerWildcards leads plain filled enumerated
  obtain ⟨orderedVisible, eachVisible⟩ := listing_below each (retrievable_enumerate enumerated) selected
  obtain ⟨orderedAll, eachAll⟩ := discover_directory leads discoveredAll
  refine orderedVisible.eq_of_mem_iff (orderedAll.filter _) fun c => ?_
  rw [List.mem_filter, eachVisible, eachAll, Bool.not_eq_true']
  constructor
  · rintro ⟨names, below, matched, kept⟩
    exact ⟨⟨names, below, ⟨matched.header, matched.reached⟩, kept⟩,
      (isHiddenFrom_eq below).trans matched.visible⟩
  · rintro ⟨⟨names, below, ⟨header, reach⟩, kept⟩, seen⟩
    exact ⟨names, below, ⟨header, reach, (isHiddenFrom_eq below).symm.trans seen⟩, kept⟩

/-- Directly in a directory a file is hidden from there exactly if its own name is. -/
theorem isHiddenFrom_direct {filter : Filter} {direct : List Candidate}
    (leads : LeadsToDirectory tree text place) (discovered : discover tree text false filter = .ok direct) :
    ∀ c ∈ direct, isHiddenFrom (Path.ofString text) c = isHidden c.path.name := by
  intro c member
  obtain ⟨names, below, ⟨-, reach⟩, -⟩ := ((discover_directory leads discovered).2 c).mp member
  obtain ⟨name, rfl⟩ := List.length_eq_one_iff.mp (reach.resolve_left Bool.false_ne_true)
  rw [isHiddenFrom_eq below, below.path]
  simp [Path.name, Path.append]

/-- A directory and its wildcards list the same headers, apart from those that are hidden.

In a tree without wildcards in its names, let a text spell a directory from the working directory. Behind it `*.h`
lists what the directory lists without recursion, except for files whose own names are hidden; and with recursion
`**/*.h` lists what the directory lists, except for files to which a hidden name leads from there. The paths are the
same and stand in the same order, and the same rules exclude them. The empty text spells no directory: behind it a
slash would lead out of the tree, as it does behind the root of all paths, which is not covered.

The components in front hold no wildcards and lead to the directory, so the wildcards are expanded there. A star leads
to all names that are visible, and two stars to all directories on visible ways; what is left of the names are those
that end as headers do. Both listings are in strict order and have the same members, since the root of the enumeration
is the same for both. -/
theorem wildcards_list_visible_headers (plain : tree.Plain) (filled : text ≠ "")
    (leads : LeadsToDirectory tree text place) (filter : Filter) :
    (∀ flat direct, discover tree (text ++ "/*.h") false filter = .ok flat →
      discover tree text false filter = .ok direct →
        flat = direct.filter fun c => !isHidden c.path.name) ∧
    (∀ deep all, discover tree (text ++ "/**/*.h") true filter = .ok deep →
      discover tree text true filter = .ok all →
        deep = all.filter fun c => !(relativePath (Path.ofString text) c.path).names.any isHidden) := by
  have spelled (front back : String) : text ++ front ++ back = text ++ (front ++ back) := String.append_assoc
  constructor
  · intro flat direct discoveredFlat discoveredDirect
    have pattern : "/*.h" = "/" ++ headerWildcards false := by decide
    rw [pattern, ← spelled] at discoveredFlat
    rw [discover_headerWildcards leads plain filled discoveredFlat discoveredDirect]
    refine List.filter_congr fun c member => ?_
    rw [isHiddenFrom_direct leads discoveredDirect c member]
  · intro deep all discoveredDeep discoveredAll
    have pattern : "/**/*.h" = "/" ++ headerWildcards true := by decide
    rw [pattern, ← spelled] at discoveredDeep
    exact discover_headerWildcards leads plain filled discoveredDeep discoveredAll

/-- A directory in which one header is hidden, and another one below a directory that is hidden. -/
def workshop : Tree :=
  ⟨[], [(["lib", ".b.h"], "int b;\n".toUTF8), (["lib", ".old", "a.h"], "int a;\n".toUTF8),
    (["lib", "c.h"], "int c;\n".toUTF8), (["lib", "core", "d.h"], "int d;\n".toUTF8)], by decide⟩

/-- Wildcards pass over what is hidden in the directory or below. -/
theorem workshop_visible_headers :
    discover workshop "lib/*.h" false Filter.none = .ok [headerAt ["lib", "c.h"]] ∧
      [headerAt ["lib", "c.h"]] =
        [headerAt ["lib", ".b.h"], headerAt ["lib", "c.h"]].filter (fun c => !isHidden c.path.name) ∧
      discover workshop "lib/**/*.h" true Filter.none =
        .ok [headerAt ["lib", "c.h"], headerAt ["lib", "core", "d.h"]] ∧
      [headerAt ["lib", "c.h"], headerAt ["lib", "core", "d.h"]] =
        [headerAt ["lib", ".b.h"], headerAt ["lib", ".old", "a.h"], headerAt ["lib", "c.h"],
          headerAt ["lib", "core", "d.h"]].filter
            fun c => !(relativePath (Path.ofString "lib") c.path).names.any isHidden := by
  have enumeratedFlat : enumerate workshop "lib/*.h" false = .ok (⟨.none, ["lib"]⟩,
      [headerAt ["lib", "c.h"]]) := by decide +kernel
  have enumeratedDirect : enumerate workshop "lib" false = .ok (⟨.none, ["lib"]⟩,
      [headerAt ["lib", ".b.h"], headerAt ["lib", "c.h"]]) := by decide +kernel
  have enumeratedDeep : enumerate workshop "lib/**/*.h" true = .ok (⟨.none, ["lib"]⟩,
      [headerAt ["lib", "c.h"], headerAt ["lib", "core", "d.h"]]) := by decide +kernel
  have enumeratedAll : enumerate workshop "lib" true = .ok (⟨.none, ["lib"]⟩,
      [headerAt ["lib", ".b.h"], headerAt ["lib", ".old", "a.h"], headerAt ["lib", "c.h"],
        headerAt ["lib", "core", "d.h"]]) := by decide +kernel
  have flat := (discover_of_ordered enumeratedFlat (by decide +kernel) Filter.none).trans rfl
  have direct := (discover_of_ordered enumeratedDirect (by decide +kernel) Filter.none).trans rfl
  have deep := (discover_of_ordered enumeratedDeep (by decide +kernel) Filter.none).trans rfl
  have all := (discover_of_ordered enumeratedAll (by decide +kernel) Filter.none).trans rfl
  have plain : workshop.Plain := by
    unfold Tree.Plain
    decide +kernel
  have leads : LeadsToDirectory workshop "lib" ["lib"] := ⟨by decide +kernel, by decide +kernel⟩
  obtain ⟨flatly, deeply⟩ := wildcards_list_visible_headers plain (by decide : "lib" ≠ "") leads Filter.none
  exact ⟨flat, flatly _ _ flat direct, deep, deeply _ _ deep all⟩

end Discovery

end ComLayout
