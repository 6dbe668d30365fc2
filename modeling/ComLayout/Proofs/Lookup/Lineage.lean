import ComLayout.Proofs.Header.Scanning
import ComLayout.Proofs.Lookup.OneFile

/-!
# Where the slots of a vtable come from

A vtable is put together from a chain of declarations in one header: the first declares the requested
name, each other one the base of the one before it, and the last has no base to follow. Its slots are the
root's, unless the last declaration is classic, and then the own slots of each declaration, the last
declaration first.
-/

namespace ComLayout

/-- What a slot holds apart from its index. -/
structure Slot where
  name : String
  line : Option Int
  interface : String
  iid : Option String
deriving DecidableEq, Repr

/-- A slot without its index. -/
def Method.slot (m : Method) : Slot := ⟨m.name, m.line, m.interface, m.iid⟩

/-- The index of each slot is its position. -/
def Numbered (methods : List Method) : Prop :=
  ∀ (i : Nat) (m : Method), methods[i]? = some m → m.index = (i : Int)

/-- A slot with its index. -/
def Slot.numbered (i : Nat) (slot : Slot) : Method := ⟨i, slot.name, slot.line, slot.interface, slot.iid⟩

/-- Numbered slots are determined by what they hold apart from their indices. -/
theorem eq_numbered {methods : List Method} {slots : List Slot} (held : methods.map Method.slot = slots)
    (numbered : Numbered methods) : methods = slots.mapIdx Slot.numbered := by
  subst held
  apply List.ext_getElem?
  intro i
  rw [List.getElem?_mapIdx, List.getElem?_map]
  cases listed : methods[i]? with
  | none => rfl
  | some m =>
    have index := numbered i m listed
    simp only [Option.map_some, Slot.numbered, Method.slot, ← index]

namespace Lookup

open Header Text

/-- The declarations from which the vtable of a requested name is put together: each but the last has a
base other than the root, and the next declares that base. -/
inductive Lineage (text : List Char) : String → List Declaration → Prop where
  | classic {request : String} {decl : Declaration}
      (declared : firstDeclaration? request text = some decl) (form : decl.form = .classic) :
      Lineage text request [decl]
  | root {request : String} {decl : Declaration}
      (declared : firstDeclaration? request text = some decl)
      (form : decl.form = .declarative Vtable.rootInterface) : Lineage text request [decl]
  | derived {request base : String} {decl : Declaration} {bases : List Declaration}
      (declared : firstDeclaration? request text = some decl) (form : decl.form = .declarative base)
      (other : base ≠ Vtable.rootInterface) (inherits : Lineage text base bases) :
      Lineage text request (decl :: bases)

/-- The slots that a declaration lists itself. -/
def ownSlots (text : List Char) (decl : Declaration) : List Slot :=
  (scanMethods text decl.stop decl.form.grammar decl.name).map fun (name, line) =>
    ⟨name, some (line : Int), decl.name, some decl.iid⟩

/-- The slots that come before all that declarations list: those of the root, if the last declaration
derives from it. -/
def foremostSlots (decls : List Declaration) : List Slot :=
  match decls.getLast?.map Declaration.form with
  | some (.declarative _) => Vtable.rootMethods.map Method.slot
  | _ => []

/-- The slots of a chain of declarations, the most derived of which comes first. -/
def lineageSlots (text : List Char) (decls : List Declaration) : List Slot :=
  foremostSlots decls ++ decls.reverse.flatMap (ownSlots text)

/-- A lineage begins with the declaration of the requested name. -/
theorem lineage_head {text : List Char} {request : String} {decls : List Declaration}
    (lineage : Lineage text request decls) :
    ∃ decl others, decls = decl :: others ∧ firstDeclaration? request text = some decl := by
  cases lineage with
  | classic declared form => exact ⟨_, _, rfl, declared⟩
  | root declared form => exact ⟨_, _, rfl, declared⟩
  | derived declared form other inherits => exact ⟨_, _, rfl, declared⟩

/-- The declarations of a lineage are determined by the requested name. -/
theorem lineage_unique {text : List Char} {request : String} {decls others : List Declaration}
    (first : Lineage text request decls) (second : Lineage text request others) : decls = others := by
  induction first generalizing others with
  | classic declared form =>
    cases second with
    | classic declaredAgain _ => rw [Option.some.inj (declared.symm.trans declaredAgain)]
    | root declaredAgain formAgain =>
      obtain rfl := Option.some.inj (declared.symm.trans declaredAgain)
      simp [form] at formAgain
    | derived declaredAgain formAgain _ _ =>
      obtain rfl := Option.some.inj (declared.symm.trans declaredAgain)
      simp [form] at formAgain
  | root declared form =>
    cases second with
    | classic declaredAgain formAgain =>
      obtain rfl := Option.some.inj (declared.symm.trans declaredAgain)
      simp [form] at formAgain
    | root declaredAgain _ => rw [Option.some.inj (declared.symm.trans declaredAgain)]
    | derived declaredAgain formAgain other _ =>
      obtain rfl := Option.some.inj (declared.symm.trans declaredAgain)
      exact absurd (DeclarationForm.declarative.inj (formAgain.symm.trans form)) other
  | derived declared form other _ inductionHypothesis =>
    cases second with
    | classic declaredAgain formAgain =>
      obtain rfl := Option.some.inj (declared.symm.trans declaredAgain)
      simp [form] at formAgain
    | root declaredAgain formAgain =>
      obtain rfl := Option.some.inj (declared.symm.trans declaredAgain)
      exact absurd (DeclarationForm.declarative.inj (form.symm.trans formAgain)) other
    | derived declaredAgain formAgain _ inherits =>
      obtain rfl := Option.some.inj (declared.symm.trans declaredAgain)
      obtain rfl := DeclarationForm.declarative.inj (form.symm.trans formAgain)
      rw [inductionHypothesis inherits]

/-- In front of a chain of declarations another may be put; its slots come last. -/
theorem lineageSlots_cons (text : List Char) (decl : Declaration) (bases : List Declaration)
    (some_ : bases ≠ []) :
    lineageSlots text (decl :: bases) = lineageSlots text bases ++ ownSlots text decl := by
  obtain ⟨base, others, rfl⟩ := List.exists_cons_of_ne_nil some_
  simp [lineageSlots, foremostSlots, List.getLast?_cons_cons, List.append_assoc]

/-- The own slots of a declaration, wherever their numbering begins. -/
theorem ownMethods_slots (text : List Char) (decl : Declaration) (first : Nat) :
    (ownMethods text decl first).map Method.slot = ownSlots text decl := by
  apply List.ext_getElem?
  intro i
  simp only [ownMethods, ownSlots, List.getElem?_map, List.getElem?_mapIdx, Option.map_map]
  rfl

/-- Own slots are numbered from where their numbering begins. -/
theorem ownMethods_index (text : List Char) (decl : Declaration) (first i : Nat) (m : Method)
    (listed : (ownMethods text decl first)[i]? = some m) : m.index = ((first + i : Nat) : Int) := by
  simp only [ownMethods, List.getElem?_mapIdx, Option.map_eq_some_iff] at listed
  obtain ⟨_, _, rfl⟩ := listed
  rfl

/-- Own slots name the interface that declares them. -/
theorem ownMethods_declared (text : List Char) (decl : Declaration) (first : Nat) (m : Method)
    (listed : m ∈ ownMethods text decl first) : m.interface = decl.name ∧ m.iid = some decl.iid := by
  have slot : m.slot ∈ ownSlots text decl := by
    rw [← ownMethods_slots text decl first]
    exact List.mem_map_of_mem listed
  obtain ⟨_, _, same⟩ := List.mem_map.mp slot
  exact ⟨(congrArg Slot.interface same).symm, (congrArg Slot.iid same).symm⟩

/-- Numbering goes on without a gap where own slots are put behind numbered ones. -/
theorem numbered_append (text : List Char) (decl : Declaration) (inherited : List Method)
    (numbered : Numbered inherited) :
    Numbered (inherited ++ ownMethods text decl inherited.length) := by
  intro i m listed
  by_cases before : i < inherited.length
  · rw [List.getElem?_append_left before] at listed
    exact numbered i m listed
  · have behind : inherited.length ≤ i := Nat.le_of_not_lt before
    rw [List.getElem?_append_right behind] at listed
    rw [ownMethods_index text decl _ _ m listed, Nat.add_sub_cancel' behind]

/-- The root's slots are numbered. -/
theorem numbered_rootMethods : Numbered Vtable.rootMethods := by
  intro i m listed
  obtain ⟨inside, rfl⟩ := List.getElem?_eq_some_iff.mp listed
  have few : i < 3 := inside
  match i, few with
  | 0, _ => rfl
  | 1, _ => rfl
  | 2, _ => rfl

/-- The slots of a declaration come from a lineage that is no longer than the budget admits. One step
down the chain adds one declaration to the lineage and puts its own slots last. -/
theorem lineage_of_slotsOf (text : List Char) (path : String) (budget : Nat) (chain : List String)
    (request : String) (decl : Declaration) (methods : List Method)
    (declared : firstDeclaration? request text = some decl)
    (resolved : slotsOf text path budget chain decl = .ok methods) :
    ∃ decls, Lineage text request decls ∧ decls.length ≤ budget + 1 ∧
      methods.map Method.slot = lineageSlots text decls ∧ Numbered methods := by
  fun_induction slotsOf text path budget chain decl generalizing request methods with
  | case1 budget chain decl form =>
    obtain rfl := Except.ok.inj resolved
    refine ⟨[decl], .classic declared form, by simp, ?_, ?_⟩
    · simp [lineageSlots, foremostSlots, form, ownMethods_slots]
    · simpa using numbered_append text decl [] (by simp [Numbered])
  | case2 budget chain decl form =>
    obtain rfl := Except.ok.inj resolved
    refine ⟨[decl], .root declared form, by simp, ?_, numbered_append text decl _ numbered_rootMethods⟩
    simp [lineageSlots, foremostSlots, form, ownMethods_slots]
  | case3 budget chain decl base form other repeated => simp at resolved
  | case4 chain decl base form other fresh => simp at resolved
  | case5 chain decl base form other fresh budget missing => simp at resolved
  | case6 chain decl base form other fresh budget baseDecl baseDeclared inductionHypothesis =>
    obtain ⟨inherited, baseResolved, rfl⟩ := (map_eq_ok _ _ _).mp resolved
    obtain ⟨bases, lineage, short, slots, numbered⟩ :=
      inductionHypothesis base inherited baseDeclared baseResolved
    obtain ⟨first, others, rfl, _⟩ := lineage_head lineage
    refine ⟨decl :: first :: others, .derived declared form other lineage, ?_, ?_,
      numbered_append text decl _ numbered⟩
    · rw [List.length_cons]
      omega
    · rw [lineageSlots_cons text decl (first :: others) (by simp), List.map_append, slots,
        ownMethods_slots]

/-- How a vtable is laid out from the declarations of one header: their number, where its slots come
from, that indices are positions, that the lines of each declaration's own slots never decrease, and
what names the vtable and its source. -/
structure LaidOut (tree : Tree) (name : String) (c : Candidate) (decls : List Declaration)
    (vtable : Vtable) : Prop where
  lineage : Lineage (fileText tree c.place) name decls
  short : decls.length ≤ maxChain
  slots : vtable.methods.map Method.slot =
    foremostSlots decls ++ decls.reverse.flatMap (ownSlots (fileText tree c.place))
  numbered : Numbered vtable.methods
  ascending : ∀ d ∈ decls, ((scanMethods (fileText tree c.place) d.stop d.form.grammar d.name).map
    (·.2)).Pairwise (· ≤ ·)
  interface : decls.head?.map Declaration.name = some vtable.interface
  source : vtable.source = some c.path.toString

/-- The vtable of a declaration that was requested by name is laid out from it and from its bases. -/
theorem laidOut_of_vtableOf {tree : Tree} {name : String} {c : Candidate} {decl : Declaration} {vtable : Vtable}
    (declared : firstDeclaration? name (fileText tree c.place) = some decl)
    (outcome : vtableOf tree name c decl = .ok vtable) : ∃ bases, LaidOut tree name c (decl :: bases) vtable := by
  obtain ⟨methods, resolved, rfl⟩ := (map_eq_ok _ _ _).mp outcome
  obtain ⟨decls, lineage, short, slots, numbered⟩ :=
    lineage_of_slotsOf _ _ _ _ name decl methods declared resolved
  obtain ⟨first, bases, rfl, again⟩ := lineage_head lineage
  obtain rfl := Option.some.inj (declared.symm.trans again)
  exact ⟨bases,
    { lineage, short, slots, numbered
      ascending := fun d _ => scanMethods_lines_ascend _ _ _ _
      interface := rfl
      source := rfl }⟩

/-- Every vtable that a lookup finds is laid out from the first discovered header that declares the requested name.

The declarations that it is put together from are all located in that header, the first under the requested name and
each other one under the base of the one before it, and they are no more than the limit. The slots of the root stand
in front if the last of them derives from it, and none if it is a generated one. Then come the slots of each
declaration, the deepest first, and the indices are the positions.

A lookup that succeeds takes its vtable from the first candidate that declares the name. There the slots are resolved
by recursion on the room below the limit: a base is resolved with less room than what derives from it, and the slots
that it yields stand in front of those of the declaration itself. By induction on the room the declarations form a
lineage. -/
theorem found_vtable_layout (tree : Tree) (name pattern : String) (recurse : Bool) (filter : Filter)
    (vtable : Vtable) (found : (find tree name pattern recurse filter).1 = .ok vtable) :
    ∃ skipped c others decls,
      Discovery.discover tree pattern recurse filter = .ok (skipped ++ c :: others) ∧
      (∀ b ∈ skipped, firstDeclaration? name (fileText tree b.place) = none) ∧
      LaidOut tree name c decls vtable := by
  obtain ⟨_, cs, c, decl, discovered, declaring, outcome⟩ :=
    find_eq_ok tree name pattern recurse filter vtable found
  obtain ⟨skipped, others, rfl, silent, declared⟩ :=
    (declaring?_eq_some tree name cs c decl).mp declaring
  obtain ⟨bases, laidOut⟩ := laidOut_of_vtableOf declared outcome
  exact ⟨skipped, c, others, decl :: bases, discovered, silent, laidOut⟩

/-- A header in which one interface derives from another. -/
def derivedHeader : String :=
  "interface DX_DECLARE_INTERFACE(\"00000000-0000-0000-0000-00000000000b\") IDerived : public ibase\n" ++
  "\x7b\n    STDMETHOD(Close)(\n        ) PURE;\n\x7d; // interface IDerived\n" ++
  "interface DX_DECLARE_INTERFACE(\"00000000-0000-0000-0000-00000000000a\") IBase : public IUnknown\n" ++
  "\x7b\n    STDMETHOD_(void, Open)(\n        ) PURE;\n\x7d; // interface IBase\n"

/-- A tree with that header alone. -/
def derivedTree : Tree := ⟨[], [(["d2d1.h"], derivedHeader.toUTF8)], by simp [isEntryName]⟩

/-- The vtable of the derived interface. -/
def derivedVtable : Vtable :=
  ⟨"IDerived", Vtable.rootMethods ++
    [⟨3, "Open", some 8, "IBase", some "\x7b00000000-0000-0000-0000-00000000000a\x7d"⟩,
     ⟨4, "Close", some 3, "IDerived", some "\x7b00000000-0000-0000-0000-00000000000b\x7d"⟩],
   some "d2d1.h"⟩

/-- Two declarations lay out the vtable of a derived interface. -/
theorem derived_vtable_layout :
    (find derivedTree "iderived" "d2d1.h" false Filter.none).1 = .ok derivedVtable ∧
    ∃ skipped c others decls,
      Discovery.discover derivedTree "d2d1.h" false Filter.none = .ok (skipped ++ c :: others) ∧
      (∀ b ∈ skipped, firstDeclaration? "iderived" (fileText derivedTree b.place) = none) ∧
      LaidOut derivedTree "iderived" c decls derivedVtable := by
  have found : (find derivedTree "iderived" "d2d1.h" false Filter.none).1 = .ok derivedVtable := by
    decide +kernel
  exact ⟨found, found_vtable_layout derivedTree "iderived" "d2d1.h" false Filter.none derivedVtable found⟩

end Lookup

end ComLayout
