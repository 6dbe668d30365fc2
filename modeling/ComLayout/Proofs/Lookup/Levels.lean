import ComLayout.Proofs.Header.Declared
import ComLayout.Proofs.Lookup.Lineage
import ComLayout.Proofs.Vtable.Counting

/-!
# The levels of a vtable

A vtable has a level for each declaration it is put together from, below the level of the root if the last
declaration derives from it. No two declarations of one vtable have the same name up to case: from there on the
chain of requests would go round. The root is not a declaration, though, and a header may declare an interface of
its name. Only a vtable that is put together from such a declaration, above the root, has two levels of one name,
and only if this is the requested interface does a summary, which counts by names, take the root's slots for
its own.
-/

namespace ComLayout

namespace Lookup

open Header Text

variable {text : List Char} {request : String} {decl : Declaration} {decls bases : List Declaration}

section Distinct

/-- Where a name has the same first declaration as another, it has the same lineage. -/
theorem lineage_congr {other : String} (same : firstDeclaration? request text = firstDeclaration? other text)
    (lineage : Lineage text request decls) : Lineage text other decls := by
  cases lineage with
  | classic declared form => exact .classic (same ▸ declared) form
  | root declared form => exact .root (same ▸ declared) form
  | derived declared form unlike inherits => exact .derived (same ▸ declared) form unlike inherits

/-- From each of its declarations on, a lineage is one. -/
theorem lineage_of_mem (lineage : Lineage text request decls) (listed : decl ∈ decls) :
    ∃ nearer further reached, decls = nearer ++ decl :: further ∧ Lineage text reached (decl :: further) := by
  induction lineage with
  | classic declared form =>
    rw [List.mem_singleton.mp listed]
    exact ⟨[], [], _, rfl, .classic declared form⟩
  | root declared form =>
    rw [List.mem_singleton.mp listed]
    exact ⟨[], [], _, rfl, .root declared form⟩
  | @derived _ _ first bases declared form unlike inherits inductionHypothesis =>
    rcases List.mem_cons.mp listed with rfl | behind
    · exact ⟨[], bases, _, rfl, .derived declared form unlike inherits⟩
    · obtain ⟨nearer, further, reached, rfl, onward⟩ := inductionHypothesis behind
      exact ⟨first :: nearer, further, reached, rfl, onward⟩

/-- The declarations of a lineage have different names, also up to case: from a repetition on, the lineage would
be the one that it is the end of. -/
theorem lineage_distinct (lineage : Lineage text request decls) :
    decls.Pairwise fun a b => sameWord a.name.toList b.name.toList = false := by
  induction lineage with
  | classic => exact List.pairwise_singleton _ _
  | root => exact List.pairwise_singleton _ _
  | @derived request _ decl bases declared form unlike inherits inductionHypothesis =>
    refine List.pairwise_cons.mpr ⟨fun base listed => ?_, inductionHypothesis⟩
    rw [Bool.eq_false_iff]
    intro same
    obtain ⟨nearer, further, reached, rfl, onward⟩ := lineage_of_mem inherits listed
    obtain ⟨again, _, split, declaredAgain⟩ := lineage_head onward
    obtain rfl := (List.cons.inj split).1
    have alike : sameWord reached.toList request.toList = true :=
      sameWord_trans (sameWord_of_firstDeclaration? declaredAgain)
        (sameWord_trans (sameWord_symm same) (sameWord_symm (sameWord_of_firstDeclaration? declared)))
    have round := lineage_congr (firstDeclaration?_of_sameWord alike text) onward
    have both := lineage_unique round (.derived declared form unlike inherits)
    have length := congrArg List.length (List.cons.inj both).2
    rw [List.length_append, List.length_cons] at length
    omega

end Distinct

section Levels

/-- A level of a vtable: an interface and the number of slots that it contributes. -/
structure Level where
  interface : String
  slots : Nat
deriving DecidableEq, Repr

/-- The level of a declaration, with the methods that are scanned from it. -/
def ownLevel (text : List Char) (decl : Declaration) : Level :=
  ⟨decl.name, (scanMethods text decl.stop decl.form.grammar decl.name).length⟩

/-- The level of the root, if the last declaration derives from it. -/
def rootLevels (decls : List Declaration) : List Level :=
  match decls.getLast?.map Declaration.form with
  | some (.declarative _) => [⟨Vtable.rootInterface, Vtable.rootMethods.length⟩]
  | _ => []

/-- The root has a level exactly where its slots come first. -/
theorem rootLevels_cases (decls : List Declaration) :
    rootLevels decls = [⟨Vtable.rootInterface, Vtable.rootMethods.length⟩] ∧
        foremostSlots decls = Vtable.rootMethods.map Method.slot ∨
      rootLevels decls = [] ∧ foremostSlots decls = [] := by
  rw [rootLevels, foremostSlots]
  rcases decls.getLast?.map Declaration.form with _ | _ | base
  · exact .inr ⟨rfl, rfl⟩
  · exact .inr ⟨rfl, rfl⟩
  · exact .inl ⟨rfl, rfl⟩

/-- The levels from the root down to the requested interface, whose declaration comes first. -/
def levels (text : List Char) (decls : List Declaration) : List Level :=
  rootLevels decls ++ decls.reverse.map (ownLevel text)

/-- The levels that the base of a declaration contributes. -/
def inheritedLevels (text : List Char) (decl : Declaration) (bases : List Declaration) : List Level :=
  rootLevels (decl :: bases) ++ bases.reverse.map (ownLevel text)

/-- The level of the requested interface comes last. -/
theorem levels_cons (text : List Char) (decl : Declaration) (bases : List Declaration) :
    levels text (decl :: bases) = inheritedLevels text decl bases ++ [ownLevel text decl] := by
  rw [levels, inheritedLevels, List.reverse_cons, List.map_append, List.map_singleton, List.append_assoc]

/-- The name of each slot's interface, where each level is a block of slots. -/
def blocks (levels : List Level) : List String :=
  levels.flatMap fun level => List.replicate level.slots level.interface

theorem blocks_append (first second : List Level) : blocks (first ++ second) = blocks first ++ blocks second :=
  List.flatMap_append

/-- A declaration above the root has the root's name. -/
def RedeclaresRoot (decls : List Declaration) : Prop :=
  rootLevels decls ≠ [] ∧ ∃ decl ∈ decls, decl.name = Vtable.rootInterface

/-- The slots of the root that bear the name of the requested interface. -/
def rootSlotsUnder (decl : Declaration) (bases : List Declaration) : Nat :=
  if decl.name = Vtable.rootInterface then (blocks (rootLevels (decl :: bases))).length else 0

/-- Slots name their interfaces level by level. -/
theorem interfaces_lineageSlots (text : List Char) (decls : List Declaration) :
    (lineageSlots text decls).map Slot.interface = blocks (levels text decls) := by
  have own (decl : Declaration) : (ownSlots text decl).map Slot.interface =
      List.replicate (ownLevel text decl).slots decl.name := by
    rw [ownSlots, List.map_map]
    exact List.map_const' ..
  have root : (foremostSlots decls).map Slot.interface = blocks (rootLevels decls) := by
    rcases rootLevels_cases decls with ⟨level, slots⟩ | ⟨level, slots⟩ <;> rw [level, slots] <;> rfl
  rw [lineageSlots, levels, List.map_append, root, blocks_append, List.map_flatMap]
  congr 1
  rw [blocks, List.flatMap_map]
  simp only [own]
  rfl

/-- Names that differ up to case differ. -/
theorem names_ne {a b : Declaration} (apart : sameWord a.name.toList b.name.toList = false) : a.name ≠ b.name := by
  intro same
  simp [same, sameWord_refl] at apart

/-- The levels of a lineage have different names unless a declaration of the root's name stands above the root. -/
theorem nodup_levels_iff (distinct : decls.Pairwise fun a b => sameWord a.name.toList b.name.toList = false) :
    ((levels text decls).map Level.interface).Nodup ↔ ¬ RedeclaresRoot decls := by
  have names : (decls.map Declaration.name).reverse.Nodup :=
    List.nodup_reverse.mpr (List.pairwise_map.mpr (distinct.imp names_ne))
  have own : (decls.reverse.map (ownLevel text)).map Level.interface = (decls.map Declaration.name).reverse := by
    rw [List.map_map, ← List.map_reverse]
    rfl
  rw [levels, List.map_append, own, RedeclaresRoot]
  rcases rootLevels_cases decls with ⟨level, -⟩ | ⟨level, -⟩
  · simp [level, names, List.nodup_cons]
  · simp [level, names]

/-- Of the blocks of a lineage, only those of the root may have the name of the requested interface, apart from
its own. -/
theorem count_blocks (distinct : (decl :: bases).Pairwise fun a b => sameWord a.name.toList b.name.toList = false) :
    (blocks (levels text (decl :: bases))).count decl.name =
      rootSlotsUnder decl bases + (ownLevel text decl).slots := by
  have noBase : decl.name ∉ blocks (bases.reverse.map (ownLevel text)) := by
    simp only [blocks, List.mem_flatMap, List.mem_map, List.mem_reverse, List.mem_replicate]
    rintro ⟨_, ⟨base, listed, rfl⟩, -, same⟩
    exact names_ne ((List.pairwise_cons.mp distinct).1 base listed) same
  have own : (blocks [ownLevel text decl]).count decl.name = (ownLevel text decl).slots := by
    simp [blocks, ownLevel]
  have root : (blocks (rootLevels (decl :: bases))).count decl.name = rootSlotsUnder decl bases := by
    rw [rootSlotsUnder]
    rcases rootLevels_cases (decl :: bases) with ⟨level, -⟩ | ⟨level, -⟩
    · by_cases same : decl.name = Vtable.rootInterface
      · simp [level, blocks, same]
      · simp [level, blocks, same, List.count_replicate, Ne.symm same]
    · simp [level, blocks]
  rw [levels_cons, inheritedLevels, blocks_append, blocks_append, List.count_append, List.count_append, root, own,
    List.count_eq_zero.mpr noBase, Nat.add_zero]

/-- What its levels say of a vtable and its summary: the slots of each level stand together, from the root down,
the declarations have different names, no name has two levels unless the root is redeclared, and a summary splits
the slots as the base and the declaration contribute them, but for slots of the root that it takes for own ones. -/
structure Levelled (text : List Char) (decl : Declaration) (bases : List Declaration) (vtable : Vtable) : Prop where
  stacked : vtable.methods.map (·.interface) = blocks (levels text (decl :: bases))
  distinct : (decl :: bases).Pairwise fun a b => sameWord a.name.toList b.name.toList = false
  once : ((levels text (decl :: bases)).map Level.interface).Nodup ↔ ¬ RedeclaresRoot (decl :: bases)
  own : (Summary.ofVtable vtable).own = rootSlotsUnder decl bases + (ownLevel text decl).slots
  inherited : (Summary.ofVtable vtable).inherited =
    ((blocks (inheritedLevels text decl bases)).length : Int) - rootSlotsUnder decl bases

/-- A vtable that is laid out from declarations has their levels. -/
theorem levelled_of_laidOut {tree : Tree} {name : String} {c : Candidate} {vtable : Vtable}
    (laidOut : LaidOut tree name c (decl :: bases) vtable) :
    Levelled (fileText tree c.place) decl bases vtable := by
  have stacked : vtable.methods.map (·.interface) = blocks (levels (fileText tree c.place) (decl :: bases)) := by
    rw [← interfaces_lineageSlots, lineageSlots, ← laidOut.slots, List.map_map]
    rfl
  have distinct := lineage_distinct laidOut.lineage
  have interface : vtable.interface = decl.name := (Option.some.inj laidOut.interface).symm
  have own : (Summary.ofVtable vtable).own =
      rootSlotsUnder decl bases + (ownLevel (fileText tree c.place) decl).slots := by
    rw [← count_blocks distinct, ← stacked, ← interface]
    exact Summary.countOf_counts _ _
  have size : vtable.methods.length = (blocks (inheritedLevels (fileText tree c.place) decl bases)).length +
      (ownLevel (fileText tree c.place) decl).slots := by
    rw [← List.length_map (·.interface), stacked, levels_cons, blocks_append, List.length_append]
    simp [blocks]
  refine ⟨stacked, distinct, nodup_levels_iff distinct, own, ?_⟩
  have split : (Summary.ofVtable vtable).inherited =
      (vtable.methods.length : Int) - (Summary.ofVtable vtable).own := rfl
  rw [split, own, size]
  omega

end Levels

/-- Every vtable that a lookup finds has the levels of the declarations it is put together from.

The slots of each level stand together, from the root down. The declarations have different names up to letter case,
so a name has one level alone, unless one of them redeclares the root. A summary counts the slots of the requested
declaration as own ones and all others as inherited, but for the slots of the root where the declaration bears its
name.

That the names differ is what the guard against cycles sees to, for each base that is requested is compared with all
requests before it. The root is never requested as a base, which is why a declaration of that name escapes the guard.
-/
theorem found_vtable_levels (tree : Tree) (name pattern : String) (recurse : Bool) (filter : Filter)
    (vtable : Vtable) (found : (find tree name pattern recurse filter).1 = .ok vtable) :
    ∃ c decl bases, LaidOut tree name c (decl :: bases) vtable ∧
      Levelled (fileText tree c.place) decl bases vtable := by
  obtain ⟨_, cs, c, decl, -, declaring, outcome⟩ := find_eq_ok tree name pattern recurse filter vtable found
  obtain ⟨_, _, -, -, declared⟩ := (declaring?_eq_some tree name cs c decl).mp declaring
  obtain ⟨bases, laidOut⟩ := laidOut_of_vtableOf declared outcome
  exact ⟨c, decl, bases, laidOut, levelled_of_laidOut laidOut⟩

/-- A derived interface has three levels: the root, its base and its own. -/
theorem derived_vtable_levels :
    (find derivedTree "iderived" "d2d1.h" false Filter.none).1 = .ok derivedVtable ∧
    ∃ c decl bases, LaidOut derivedTree "iderived" c (decl :: bases) derivedVtable ∧
      Levelled (fileText derivedTree c.place) decl bases derivedVtable := by
  have found : (find derivedTree "iderived" "d2d1.h" false Filter.none).1 = .ok derivedVtable := by
    decide +kernel
  exact ⟨found, found_vtable_levels derivedTree "iderived" "d2d1.h" false Filter.none derivedVtable found⟩

/-- A header that declares an interface of the root's name above one that derives from the root. -/
def redeclaredHeader : String :=
  "interface DX_DECLARE_INTERFACE(\"00000000-0000-0000-0000-00000000000b\") IUnknown : public IBase\n" ++
  "\x7b\n    STDMETHOD(Close)(\n        ) PURE;\n\x7d; // interface IUnknown\n" ++
  "interface DX_DECLARE_INTERFACE(\"00000000-0000-0000-0000-00000000000a\") IBase : public IUnknown\n" ++
  "\x7b\n    STDMETHOD_(void, Open)(\n        ) PURE;\n\x7d; // interface IBase\n"

/-- A tree with that header alone. -/
def redeclaredTree : Tree := ⟨[], [(["d2d1.h"], redeclaredHeader.toUTF8)], by simp [isEntryName]⟩

/-- The vtable of the interface of the root's name. -/
def redeclaredVtable : Vtable :=
  ⟨"IUnknown", Vtable.rootMethods ++
    [⟨3, "Open", some 8, "IBase", some "\x7b00000000-0000-0000-0000-00000000000a\x7d"⟩,
     ⟨4, "Close", some 3, "IUnknown", some "\x7b00000000-0000-0000-0000-00000000000b\x7d"⟩],
   some "d2d1.h"⟩

/-- The slots of the root and those of the declaration of its name stand apart, and the summary takes all of them
for own ones, although one method is scanned from the declaration and the base contributes four slots. -/
theorem redeclared_root_has_two_levels :
    (find redeclaredTree "IUnknown" "d2d1.h" false Filter.none).1 = .ok redeclaredVtable ∧
      redeclaredVtable.methods.map (·.interface) = ["IUnknown", "IUnknown", "IUnknown", "IBase", "IUnknown"] ∧
      (firstDeclaration? "IUnknown" (fileText redeclaredTree ["d2d1.h"])).map
        (ownLevel (fileText redeclaredTree ["d2d1.h"])) = some ⟨"IUnknown", 1⟩ ∧
      (find redeclaredTree "IBase" "d2d1.h" false Filter.none).1.map (·.size) = .ok 4 ∧
      Summary.ofVtable redeclaredVtable = ⟨5, 4, 1, [("IUnknown", 4), ("IBase", 1)]⟩ := by
  refine ⟨?_, ?_, ?_, ?_, ?_⟩ <;> decide +kernel

end Lookup

end ComLayout
