import ComLayout.Proofs.Lookup.Outcome

/-!
# Looking up a vtable in one file

A pattern that leads to a file stands for that file alone. What is discovered is the file or, where the
filter keeps it out, nothing. Without a filter a lookup in one file is decided by its text.
-/

namespace ComLayout

/-- A pattern leads to a file at a place of the tree. -/
structure LeadsToFile (tree : Tree) (pattern : String) (place : Location) : Prop where
  found : tree.find? (Path.ofString pattern) = .ok (some place)
  file : tree.isFile place = true

namespace LeadsToFile

variable {tree : Tree} {pattern : String} {place : Location}

/-- The file is the only candidate. -/
theorem enumerate_eq (leads : LeadsToFile tree pattern place) (recurse : Bool) :
    Discovery.enumerate tree pattern recurse =
      .ok ((Path.ofString pattern).parent, [⟨Path.ofString pattern, place⟩]) := by
  simp [Discovery.enumerate, leads.found, leads.file, bind, Except.bind]

/-- What is discovered is the file, as far as it passes the filter. -/
theorem discover_eq (leads : LeadsToFile tree pattern place) (recurse : Bool) (filter : Filter) :
    Discovery.discover tree pattern recurse filter =
      (Discovery.passes tree (Path.ofString pattern).parent filter ⟨Path.ofString pattern, place⟩).map
        fun kept => if kept then [⟨Path.ofString pattern, place⟩] else [] := by
  have sorted : Discovery.sort [⟨Path.ofString pattern, place⟩] = [⟨Path.ofString pattern, place⟩] :=
    List.mergeSort_singleton _
  rw [Discovery.discover, leads.enumerate_eq]
  simp only [mapError_ok, bind, Except.bind, sorted, Discovery.firstOfEach, Discovery.select,
    List.contains_nil, Bool.false_eq_true, if_false]
  cases Discovery.passes tree (Path.ofString pattern).parent filter ⟨Path.ofString pattern, place⟩ <;> rfl

/-- Without a filter the file is discovered. -/
theorem discover_unfiltered (leads : LeadsToFile tree pattern place) (recurse : Bool) :
    Discovery.discover tree pattern recurse Filter.none = .ok [⟨Path.ofString pattern, place⟩] := by
  have kept : Discovery.passes tree (Path.ofString pattern).parent Filter.none
      ⟨Path.ofString pattern, place⟩ = .ok true := rfl
  rw [leads.discover_eq, kept]
  rfl

end LeadsToFile

namespace Lookup

open Header Text

variable {tree : Tree} {pattern : String} {place : Location}

/-- The slots of a declaration that was requested by name from a file. -/
def slotsInFile (tree : Tree) (pattern : String) (place : Location) (name : String)
    (decl : Declaration) : Except LookupError (List Method) :=
  slotsOf (fileText tree place) (Path.ofString pattern).toString (maxChain - 1) [lowerString name] decl

/-- A lookup that succeeds in one file yields the slots of the first declaration of the name there. -/
theorem find_eq_ok_iff_of_file (leads : LeadsToFile tree pattern place) (name : String)
    (recurse : Bool) (filter : Filter) (vtable : Vtable) (decl : Declaration)
    (declared : firstDeclaration? name (fileText tree place) = some decl) :
    (find tree name pattern recurse filter).1 = .ok vtable ↔
      name ≠ "" ∧
      Discovery.discover tree pattern recurse filter = .ok [⟨Path.ofString pattern, place⟩] ∧
      ∃ methods, slotsInFile tree pattern place name decl = .ok methods ∧
        vtable = ⟨decl.name, methods, some (Path.ofString pattern).toString⟩ := by
  have first : declaring? tree name [⟨Path.ofString pattern, place⟩] =
      some (⟨Path.ofString pattern, place⟩, decl) := by
    simp only [declaring?, List.findSome?_cons, declared, Option.map_some]
  constructor
  · intro found
    obtain ⟨named, cs, c, other, discovered, chosen, outcome⟩ :=
      find_eq_ok tree name pattern recurse filter vtable found
    have among : cs = [⟨Path.ofString pattern, place⟩] := by
      rw [leads.discover_eq] at discovered
      obtain ⟨kept, _, rfl⟩ := (map_eq_ok _ _ _).mp discovered
      cases kept with
      | true => rfl
      | false => simp [declaring?] at chosen
    subst among
    obtain ⟨rfl, rfl⟩ := Prod.mk.inj (Option.some.inj (first.symm.trans chosen))
    obtain ⟨methods, slots, rfl⟩ := (map_eq_ok _ _ _).mp outcome
    exact ⟨named, discovered, methods, slots, rfl⟩
  · rintro ⟨named, discovered, methods, slots, rfl⟩
    rw [slotsInFile] at slots
    rw [find_result tree name pattern recurse filter named, discovered]
    simp only [foundAmong, first, List.cons_ne_nil, if_false, vtableOf, slots]
    rfl

/-- Without a filter, a lookup in one file is decided by the first declaration of the name there. -/
theorem find_in_file (leads : LeadsToFile tree pattern place) (name : String) (recurse : Bool)
    (named : name ≠ "") :
    (find tree name pattern recurse Filter.none).1 =
      match firstDeclaration? name (fileText tree place) with
      | none => .error (.lookup (.interfaceNotFound name pattern 1))
      | some decl => ((slotsInFile tree pattern place name decl).map fun methods =>
          ⟨decl.name, methods, some (Path.ofString pattern).toString⟩).mapError .lookup := by
  rw [find_result tree name pattern recurse _ named, leads.discover_unfiltered]
  simp only [foundAmong, declaring?, List.findSome?_cons, List.cons_ne_nil, if_false]
  cases firstDeclaration? name (fileText tree place) <;> rfl

end Lookup

end ComLayout
