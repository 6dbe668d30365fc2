import ComLayout.Proofs.Discovery.Filtering
import ComLayout.Proofs.Lookup.OneFile

/-!
# Looking up a vtable in many files

A lookup in the headers that a pattern leads to is the lookup in the first of them that declares the
name. That header is discovered alone by its own path, because the rules that keep it among many keep
it by its name. The one exception is a file that is itself the fixed root of a pattern: relative to the
root it has no name, so that no rule excludes it.
-/

namespace ComLayout

namespace Discovery

open Glob

/-- The rules do not exclude a header by its own name. They never do where it is a header that the
pattern names or that lies below the fixed root of the pattern. -/
def KeptByName (pattern : String) (filter : Filter) (c : Candidate) : Prop :=
  LiesBelow pattern c ∨ anyExcludes (ownName c.path) filter.rules = .ok false

/-- What was discovered among many is kept by its name. -/
theorem anyExcludes_of_keptByName {tree : Tree} {pattern : String} {recurse : Bool} {filter : Filter}
    {root : Path} {found : List Candidate}
    (enumerated : enumerate tree pattern recurse = .ok (root, found)) (c : Candidate)
    (member : c ∈ found) (passed : passes tree root filter c = .ok true)
    (kept : KeptByName pattern filter c) : anyExcludes (ownName c.path) filter.rules = .ok false := by
  rcases kept with below | byName
  · have named : c.path.names ≠ [] := names_ne_nil (retrievable_enumerate enumerated c member)
    have apart : c.path ≠ root := ne_root enumerated c member below
    obtain ⟨filled, same⟩ := ownName_relativePath named apart
    rw [← same]
    exact anyExcludes_of_endsIn (endsIn_ownName filled) (passes_eq_true.mp passed).1
  · exact byName

/-- A header that was discovered among many is discovered alone exactly if the rules keep it by its
name. -/
theorem discover_alone_iff {tree : Tree} {pattern : String} {recurse : Bool} {filter : Filter}
    {cs : List Candidate} (discovered : discover tree pattern recurse filter = .ok cs)
    (c : Candidate) (member : c ∈ cs) (again : Bool) :
    discover tree c.path.toString again filter = .ok [c] ↔ KeptByName pattern filter c := by
  obtain ⟨root, found, enumerated, each⟩ := mem_discover discovered
  obtain ⟨among, passed⟩ := each c member
  have retrievable : c.Retrievable tree := retrievable_enumerate enumerated c among
  have read : Path.ofString c.path.toString = c.path :=
    Path.ofString_toString c.path retrievable.readable
  have leads : LeadsToFile tree c.path.toString c.place :=
    ⟨by rw [read]; exact retrievable.found, retrievable.file⟩
  have byName : passes tree c.path.parent filter c = .ok true ↔
      anyExcludes (ownName c.path) filter.rules = .ok false := by
    rw [passes_eq_true, relativePath_parent (names_ne_nil retrievable)]
    exact and_iff_left (passes_eq_true.mp passed).2
  rw [leads.discover_eq, read]
  constructor
  · intro alone
    obtain ⟨verdict, kept, listed⟩ := (map_eq_ok _ _ _).mp alone
    cases verdict with
    | true => exact .inr (byName.mp kept)
    | false => simp at listed
  · intro kept
    rw [byName.mpr (anyExcludes_of_keptByName enumerated c among passed kept)]
    rfl

end Discovery

namespace Lookup

open Header Discovery

/-- A lookup among headers that were discovered. -/
theorem find_discovered {tree : Tree} {name pattern : String} {recurse : Bool} {filter : Filter}
    {cs : List Candidate} (named : name ≠ "")
    (discovered : discover tree pattern recurse filter = .ok cs) :
    (find tree name pattern recurse filter).1 =
      (foundAmong tree name pattern cs).mapError .lookup := by
  rw [find_result tree name pattern recurse filter named, discovered]

/-- Where headers before it are silent, a header that declares the name determines the outcome. -/
theorem foundAmong_first {tree : Tree} {name pattern : String} {before after : List Candidate}
    {c : Candidate} {decl : Declaration}
    (silent : ∀ b ∈ before, firstDeclaration? name (fileText tree b.place) = none)
    (declared : firstDeclaration? name (fileText tree c.place) = some decl) :
    foundAmong tree name pattern (before ++ c :: after) = vtableOf tree name c decl := by
  have first : declaring? tree name (before ++ c :: after) = some (c, decl) :=
    (declaring?_eq_some tree name _ c decl).mpr ⟨before, after, rfl, silent, declared⟩
  simp [foundAmong, first]

/-- Where no header declares the name, the headers that were searched are counted. -/
theorem foundAmong_silent {tree : Tree} {name pattern : String} {cs : List Candidate}
    (filled : cs ≠ [])
    (silent : ∀ c ∈ cs, firstDeclaration? name (fileText tree c.place) = none) :
    foundAmong tree name pattern cs = .error (.interfaceNotFound name pattern cs.length) := by
  have none : declaring? tree name cs = none := by
    rw [declaring?, List.findSome?_eq_none_iff]
    intro c member
    rw [silent c member]
    rfl
  simp [foundAmong, filled, none]

/-- A lookup in many headers is decided by the first header that declares the name.

A header that was discovered is discovered alone by its path exactly if the rules keep it by its name. Without headers
nothing matches the pattern; where no header declares the name, all of them were searched in vain. Otherwise the
outcome is that of the lookup in the first header that declares the name, be it a vtable or an error, and headers
behind it may be any others.

Searching goes through the candidates in order and stops at the first that declares the name, so it passes over silent
headers and never comes to those behind. The bases are sought in the same header, whose text is all that the outcome
depends on besides its path. Alone, that path is its own root, and so the rules see its name in place of the way that
led to it. -/
theorem find_decided_by_first_header (tree : Tree) (name pattern : String) (recurse : Bool)
    (filter : Filter) (cs : List Candidate) (named : name ≠ "")
    (discovered : discover tree pattern recurse filter = .ok cs) :
    (∀ c ∈ cs, ∀ again,
      discover tree c.path.toString again filter = .ok [c] ↔ KeptByName pattern filter c) ∧
    (cs = [] → (find tree name pattern recurse filter).1 =
      .error (.lookup (.noMatchingFiles pattern))) ∧
    (cs ≠ [] → (∀ c ∈ cs, firstDeclaration? name (fileText tree c.place) = none) →
      (find tree name pattern recurse filter).1 =
        .error (.lookup (.interfaceNotFound name pattern cs.length))) ∧
    (∀ before c after, cs = before ++ c :: after →
      (∀ b ∈ before, firstDeclaration? name (fileText tree b.place) = none) →
      (firstDeclaration? name (fileText tree c.place)).isSome = true →
      (KeptByName pattern filter c → ∀ again, (find tree name pattern recurse filter).1 =
        (find tree name c.path.toString again filter).1) ∧
      (∀ changed others, discover changed pattern recurse filter = .ok (before ++ c :: others) →
        (∀ b ∈ before ++ [c], fileText changed b.place = fileText tree b.place) →
        (find changed name pattern recurse filter).1 = (find tree name pattern recurse filter).1)) := by
  refine ⟨?alone, ?nothing, ?silent, ?first⟩
  case alone =>
    intro c member again
    exact discover_alone_iff discovered c member again
  case nothing =>
    rintro rfl
    rw [find_discovered named discovered]
    rfl
  case silent =>
    intro filled silent
    rw [find_discovered named discovered, foundAmong_silent filled silent]
    rfl
  case first =>
    rintro before c after rfl silent declares
    obtain ⟨decl, declared⟩ := Option.isSome_iff_exists.mp declares
    refine ⟨?_, ?_⟩
    · intro kept again
      have alone : discover tree c.path.toString again filter = .ok ([] ++ c :: []) :=
        (discover_alone_iff discovered c (by simp) again).mpr kept
      rw [find_discovered named discovered, find_discovered named alone,
        foundAmong_first silent declared, foundAmong_first (by simp) declared]
    · intro changed others rediscovered unchanged
      have sameText : fileText changed c.place = fileText tree c.place := unchanged c (by simp)
      have silentThen : ∀ b ∈ before, firstDeclaration? name (fileText changed b.place) = none := by
        intro b member
        rw [unchanged b (List.mem_append_left [c] member)]
        exact silent b member
      have declaredThen : firstDeclaration? name (fileText changed c.place) = some decl := by
        rw [sameText]
        exact declared
      rw [find_discovered named discovered, find_discovered named rediscovered,
        foundAmong_first silent declared, foundAmong_first silentThen declaredThen, vtableOf, vtableOf,
        sameText]

/-- A header that declares nothing. -/
def inkHeader : Candidate := ⟨⟨.none, ["desk", "ink.h"]⟩, ["desk", "ink.h"]⟩

/-- A header that declares an interface. -/
def penHeader : Candidate := ⟨⟨.none, ["desk", "pen.h"]⟩, ["desk", "pen.h"]⟩

/-- The text of the header that declares an interface. -/
def penText : String :=
  "MIDL_INTERFACE(\"00000000-0000-0000-0000-000000000001\")\nIPen : public IUnknown\n"

/-- A directory with the two headers. -/
def desk : Tree :=
  ⟨[], [(["desk", "ink.h"], "int ink;\n".toUTF8), (["desk", "pen.h"], penText.toUTF8)], by decide⟩

/-- The pen is looked up on the desk as it is looked up alone. -/
theorem pen_decides_desk :
    discover desk "desk" false Filter.standard = .ok [inkHeader, penHeader] ∧
    (find desk "ipen" "desk" false Filter.standard).1 =
      (find desk "ipen" "desk/pen.h" true Filter.standard).1 := by
  have enumerated : enumerate desk "desk" false = .ok (⟨.none, ["desk"]⟩, [inkHeader, penHeader]) := by
    decide +kernel
  have discovered : discover desk "desk" false Filter.standard = .ok [inkHeader, penHeader] := by
    rw [discover_of_ordered enumerated (by decide +kernel)]
    decide +kernel
  have silent : firstDeclaration? "ipen" (fileText desk inkHeader.place) = none := by decide +kernel
  have declares : (firstDeclaration? "ipen" (fileText desk penHeader.place)).isSome = true := by
    decide +kernel
  obtain ⟨-, -, -, first⟩ := find_decided_by_first_header desk "ipen" "desk" false Filter.standard
    [inkHeader, penHeader] (by decide) discovered
  have decided := (first [inkHeader] penHeader [] rfl (by simpa using silent) declares).1
  have below : LiesBelow "desk" penHeader := .inr (by decide +kernel)
  exact ⟨discovered, decided (.inl below) true⟩

/-- Wildcards that stand for nothing lead back to the pen, which is then the root of the enumeration.
No rule excludes the root, though one excludes the pen by its name. -/
theorem pen_excluded_alone :
    discover desk "desk/pen.h/**" true ⟨[.glob "*.h"], .int 0⟩ = .ok [penHeader] ∧
    discover desk "desk/pen.h" true ⟨[.glob "*.h"], .int 0⟩ = .ok [] := by
  constructor <;> decide +kernel

end Lookup

end ComLayout
