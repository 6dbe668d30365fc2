import ComLayout.Proofs.Discovery.Directories

/-!
# Narrowing the directory

A header that is discovered by recursion in a directory is also discovered from each directory on the way to
it. There the exclusion rules see less of its path; but a rule that excludes the rest of a path excludes the
whole path, so nothing is excluded there that is kept here.
-/

namespace ComLayout.Discovery

open Glob

variable {tree : Tree} {base : Path} {place : Location} {front names : List String} {c : Candidate}

/-- A file below a directory is below each directory on the way. -/
theorem FileBelow.narrow {between : Location} (below : FileBelow tree base place (front ++ names) c)
    (located : tree.locate (base.append front) = .ok between) :
    FileBelow tree (base.append front) between names c := by
  have down : ".." ∉ names := fun back => below.down (List.mem_append_right front back)
  refine fileBelow_of_path located down ?_ below.found below.file
  rw [below.path, Path.append_append]

/-- What is kept by a path is kept by each end of it. -/
theorem KeptBelow.narrow {filter : Filter} (kept : KeptBelow tree filter (front ++ names) c) :
    KeptBelow tree filter names c := by
  have ends : EndsIn ⟨.none, front ++ names⟩ ⟨.none, names⟩ := ⟨rfl, List.suffix_append front names⟩
  exact ⟨anyExcludes_of_endsIn ends kept.1, kept.2⟩

/-- No header is lost when the directory is narrowed.

The headers that recursion discovers in a directory, as far as they lie below another directory on the way, are
discovered from there, in the same order. They are those whose paths go on from the path of that directory, and unless
this leads back on the way, those whose places lie below it.

What recursion discovers in a directory is known by its members: the headers below it that the filter keeps, each
spelled by the directory and the names that lead to it. Below the narrow directory the names are cut, and a rule that
excludes the shorter path excludes the longer one as well, so what is kept from the wide directory is kept from the
narrow one. Both listings are in strict order, so it is enough that the one holds the other. -/
theorem narrowing_loses_no_header {wide narrow : String} {front : List String} {widePlace narrowPlace : Location}
    {filter : Filter} {whole part : List Candidate} (leadsWide : LeadsToDirectory tree wide widePlace)
    (leadsNarrow : LeadsToDirectory tree narrow narrowPlace)
    (onward : Path.ofString narrow = (Path.ofString wide).append front)
    (discoveredWide : discover tree wide true filter = .ok whole)
    (discoveredNarrow : discover tree narrow true filter = .ok part) :
    (whole.filter fun c => ((Path.ofString narrow).under? c.path).isSome).Sublist part ∧
      (".." ∉ front → ∀ c ∈ whole,
        ((Path.ofString narrow).under? c.path).isSome = narrowPlace.isPrefixOf c.place) := by
  obtain ⟨orderedWide, eachWide⟩ := discover_directory leadsWide discoveredWide
  obtain ⟨orderedNarrow, eachNarrow⟩ := discover_directory leadsNarrow discoveredNarrow
  have path_eq {c : Candidate} {all : List String}
      (below : FileBelow tree (Path.ofString wide) widePlace all c) (names : List String) :
      (Path.ofString narrow).under? c.path = some names ↔ all = front ++ names := by
    rw [Path.under?_eq_some, below.path, onward, Path.append_append]
    exact ⟨fun same => List.append_cancel_left (congrArg Path.names same), fun same => by rw [same]⟩
  refine ⟨?_, fun down c member => ?_⟩
  · have within : (whole.filter fun c => ((Path.ofString narrow).under? c.path).isSome) ⊆ part := by
      intro c member
      obtain ⟨among, under⟩ := List.mem_filter.mp member
      obtain ⟨all, below, ⟨header, -⟩, kept⟩ := (eachWide c).mp among
      obtain ⟨names, way⟩ := Option.isSome_iff_exists.mp under
      obtain rfl := (path_eq below names).mp way
      have belowNarrow := below.narrow (onward ▸ leadsNarrow.located)
      rw [← onward] at belowNarrow
      rw [isHeaderName_append (belowNarrow.filled leadsNarrow.dir)] at header
      exact (eachNarrow c).mpr ⟨names, belowNarrow, ⟨header, .inl rfl⟩, kept.narrow⟩
    have ordered := orderedWide.filter fun c => ((Path.ofString narrow).under? c.path).isSome
    exact List.sublist_of_subperm_of_pairwise (List.subperm_of_subset ordered.nodup within) ordered orderedNarrow
  · obtain ⟨all, below, -, -⟩ := (eachWide c).mp member
    obtain ⟨between, first, followed⟩ := Tree.locate_append (onward ▸ leadsNarrow.located)
    rw [leadsWide.located, Except.ok.injEq] at first
    have place : narrowPlace = widePlace ++ front := first ▸ Tree.follow_down down followed
    rw [Bool.eq_iff_iff, Option.isSome_iff_exists, List.isPrefixOf_iff_prefix, below.place, place,
      List.prefix_append_right_inj]
    simp only [path_eq below]
    exact ⟨fun ⟨names, same⟩ => ⟨names, same.symm⟩, fun ⟨names, same⟩ => ⟨names, same.symm⟩⟩

/-- A directory with what was built, part of it one directory deeper, and a header beside it. -/
def site : Tree :=
  ⟨[], [(["build", "cmake", "gen.h"], "int a;\n".toUTF8), (["build", "gen.h"], "int b;\n".toUTF8),
    (["tool.h"], "int c;\n".toUTF8)], by decide⟩

/-- From where it was built all is listed that is listed from above, and more. -/
theorem site_narrowed_to_build :
    discover site "." true Filter.standard = .ok [headerAt ["build", "cmake", "gen.h"], headerAt ["tool.h"]] ∧
      discover site "build" true Filter.standard =
        .ok [headerAt ["build", "cmake", "gen.h"], headerAt ["build", "gen.h"]] ∧
      ([headerAt ["build", "cmake", "gen.h"], headerAt ["tool.h"]].filter fun c =>
        ((Path.ofString "build").under? c.path).isSome).Sublist
          [headerAt ["build", "cmake", "gen.h"], headerAt ["build", "gen.h"]] := by
  have wide : enumerate site "." true = .ok (⟨.none, []⟩,
      [headerAt ["build", "cmake", "gen.h"], headerAt ["build", "gen.h"], headerAt ["tool.h"]]) := by
    decide +kernel
  have narrow : enumerate site "build" true = .ok (⟨.none, ["build"]⟩,
      [headerAt ["build", "cmake", "gen.h"], headerAt ["build", "gen.h"]]) := by
    decide +kernel
  have discoveredWide : discover site "." true Filter.standard =
      .ok [headerAt ["build", "cmake", "gen.h"], headerAt ["tool.h"]] := by
    rw [discover_of_ordered wide (by decide +kernel)]
    decide +kernel
  have discoveredNarrow : discover site "build" true Filter.standard =
      .ok [headerAt ["build", "cmake", "gen.h"], headerAt ["build", "gen.h"]] := by
    rw [discover_of_ordered narrow (by decide +kernel)]
    decide +kernel
  have leadsWide : LeadsToDirectory site "." [] := ⟨by decide +kernel, by decide +kernel⟩
  have leadsNarrow : LeadsToDirectory site "build" ["build"] := ⟨by decide +kernel, by decide +kernel⟩
  exact ⟨discoveredWide, discoveredNarrow,
    (narrowing_loses_no_header leadsWide leadsNarrow (by decide +kernel : Path.ofString "build" =
      (Path.ofString ".").append ["build"]) discoveredWide discoveredNarrow).1⟩

end ComLayout.Discovery
