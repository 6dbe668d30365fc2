import ComLayout.Proofs.Header.FirstDeclaration
import ComLayout.Proofs.Header.NameLine
import ComLayout.Proofs.Lookup.Lineage

/-!
# The texts in the slots of a vtable

A header may hold anything, but what of it gets into a slot is narrow. The name of a method is a word, the
interface is a word or the requested name up to case, and the identifier is a GUID in braces.
-/

namespace ComLayout

open Header Text

/-- What a slot may hold apart from its line, if the vtable is that of a requested name. -/
structure Slot.Spells (request : String) (slot : Slot) : Prop where
  name : WordRun slot.name.toList
  interface : ∃ word, (word = request.toList ∨ WordRun word) ∧ sameWord word slot.interface.toList = true
  iid : ∀ iid, slot.iid = some iid → ∃ guid : Guid, iid = formatIid (String.ofList guid.text)

namespace Lookup

variable {text : List Char} {request : String} {decls : List Declaration}

/-- The names of the methods that a scan reports are words. -/
theorem wordRun_of_scanMethods {start : Nat} {grammar : Grammar} {name : String} {method : String × Nat}
    (reported : method ∈ scanMethods text start grammar name) : WordRun method.1.toList := by
  rcases scanMethods_reports_every_method text start grammar name with ⟨-, none⟩ | ⟨_, _, listed, -, -, lists, eq⟩
  · rw [none] at reported
    exact absurd reported List.not_mem_nil
  · rw [eq] at reported
    obtain ⟨o, among, rfl⟩ := List.mem_map.mp reported
    rw [MethodOccurrence.reported, String.toList_ofList]
    exact wordRun_of_occurs ((lists.exact o).mp among).1

/-- Each declaration of a lineage is the first one of a name that is requested: the name at first, and then words,
for the base of a declaration is a word. -/
theorem declared_of_mem (lineage : Lineage text request decls) (some_ : request.toList ≠ []) :
    ∀ decl ∈ decls, ∃ reached : String, (reached.toList = request.toList ∨ WordRun reached.toList) ∧
      reached.toList ≠ [] ∧ firstDeclaration? reached text = some decl := by
  induction lineage with
  | classic declared form => exact List.forall_mem_singleton.mpr ⟨_, .inl rfl, some_, declared⟩
  | root declared form => exact List.forall_mem_singleton.mpr ⟨_, .inl rfl, some_, declared⟩
  | @derived request base decl bases declared form other inherits inductionHypothesis =>
    rw [List.forall_mem_cons]
    refine ⟨⟨request, .inl rfl, some_, declared⟩, fun further listed => ?_⟩
    have word : WordRun base.toList := wordRun_of_declares (declares_of_firstDeclaration? some_ declared) form
    obtain ⟨reached, named, filled, found⟩ := inductionHypothesis word.1 further listed
    exact ⟨reached, .inr (named.elim (fun same => same ▸ word) id), filled, found⟩

/-- The slots of a declaration hold what slots may hold. -/
theorem spells_ownSlots {decl : Declaration} {reached : String}
    (named : reached.toList = request.toList ∨ WordRun reached.toList) (some_ : reached.toList ≠ [])
    (declared : firstDeclaration? reached text = some decl) : ∀ slot ∈ ownSlots text decl, slot.Spells request := by
  intro slot listed
  obtain ⟨⟨method, line⟩, reported, rfl⟩ := List.mem_map.mp listed
  obtain ⟨guid, identified⟩ := exists_guid_of_declares (declares_of_firstDeclaration? some_ declared)
  exact
    { name := wordRun_of_scanMethods reported
      interface := ⟨reached.toList, named, sameWord_of_firstDeclaration? declared⟩
      iid := fun iid known => ⟨guid, (Option.some.inj known).symm.trans identified⟩ }

/-- The slots of the root hold what slots may hold. -/
theorem spells_foremostSlots (request : String) (decls : List Declaration) :
    ∀ slot ∈ foremostSlots decls, slot.Spells request := by
  have root : ∀ slot ∈ Vtable.rootMethods.map Method.slot,
      WordRun slot.name.toList ∧ slot.interface = Vtable.rootInterface ∧ slot.iid = none := by decide +kernel
  intro slot listed
  have among : slot ∈ Vtable.rootMethods.map Method.slot := by
    rw [foremostSlots] at listed
    split at listed
    · exact listed
    · exact absurd listed List.not_mem_nil
  obtain ⟨word, interface, none⟩ := root slot among
  refine ⟨word, ⟨Vtable.rootInterface.toList, .inr (by decide), ?_⟩, by simp [none]⟩
  rw [interface]
  exact sameWord_refl _

/-- A lookup that finds a vtable was given a name, and each slot holds no more than slots may hold. -/
theorem found_spells {tree : Tree} {name pattern : String} {recurse : Bool} {filter : Filter} {vtable : Vtable}
    (found : (find tree name pattern recurse filter).1 = .ok vtable) :
    ∀ m ∈ vtable.methods, m.slot.Spells name := by
  have given : name.toList ≠ [] := by
    simpa using (find_eq_ok tree name pattern recurse filter vtable found).1
  obtain ⟨_, c, _, decls, _, _, laidOut⟩ := found_vtable_layout tree name pattern recurse filter vtable found
  have declared := declared_of_mem laidOut.lineage given
  intro m member
  have listed : m.slot ∈ vtable.methods.map Method.slot := List.mem_map_of_mem member
  rw [laidOut.slots, List.mem_append, List.mem_flatMap] at listed
  rcases listed with foremost | ⟨decl, among, own⟩
  · exact spells_foremostSlots name decls m.slot foremost
  · obtain ⟨reached, named, some_, first⟩ := declared decl (List.mem_reverse.mp among)
    exact spells_ownSlots named some_ first m.slot own

end Lookup

end ComLayout
