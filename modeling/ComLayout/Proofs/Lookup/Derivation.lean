import ComLayout.Proofs.Header.Declared
import ComLayout.Proofs.Lookup.Lineage

/-!
# A derived vtable extends that of its base

A base is looked up twice in different ways: under the names requested so far, as part of the vtable of
an interface that derives from it, and under its own name alone. The slots are the same, because with
fewer names requested and more of them admitted nothing that was found before is refused.
-/

namespace ComLayout.Lookup

open Header Text

/-- Slots that are found under a chain of requests are found under part of the chain, with at least as
much budget. -/
theorem slotsOf_mono (text : List Char) (path : String) (budget : Nat) (chain : List String)
    (decl : Declaration) (methods : List Method)
    (resolved : slotsOf text path budget chain decl = .ok methods) (more : Nat) (part : List String)
    (enough : budget ≤ more) (fewer : part ⊆ chain) :
    slotsOf text path more part decl = .ok methods := by
  fun_induction slotsOf text path budget chain decl generalizing methods more part with
  | case1 budget chain decl form =>
    rw [slotsOf]
    simpa only [form] using resolved
  | case2 budget chain decl form =>
    rw [slotsOf]
    simpa only [form, if_true] using resolved
  | case3 budget chain decl base form other repeated => simp at resolved
  | case4 chain decl base form other fresh => simp at resolved
  | case5 chain decl base form other fresh budget missing => simp at resolved
  | case6 chain decl base form other fresh budget baseDecl baseDeclared inductionHypothesis =>
    obtain ⟨rest, rfl⟩ : ∃ rest, more = rest + 1 := ⟨more - 1, by omega⟩
    have freshInPart : lowerString base ∉ part := by
      intro member
      exact fresh (fewer member)
    have longer : part ++ [lowerString base] ⊆ chain ++ [lowerString base] :=
      List.append_subset.mpr
        ⟨List.Subset.trans fewer (List.subset_append_left _ _), List.subset_append_right _ _⟩
    obtain ⟨inherited, baseResolved, rfl⟩ := (map_eq_ok _ _ _).mp resolved
    have same := inductionHypothesis inherited baseResolved rest (part ++ [lowerString base])
      (Nat.le_of_succ_le_succ enough) longer
    rw [slotsOf]
    simp only [form, other, freshInPart, baseDeclared, if_false, same]
    rfl

variable {tree : Tree} {pattern : String} {place : Location}

/-- The slots of a declaration with a base other than the root are those of a lookup of the base, followed
by its own. -/
theorem slotsInFile_derived (name base : String) (decl : Declaration) (methods : List Method)
    (form : decl.form = .declarative base) (other : base ≠ Vtable.rootInterface)
    (resolved : slotsInFile tree pattern place name decl = .ok methods) :
    ∃ baseDecl inherited, firstDeclaration? base (fileText tree place) = some baseDecl ∧
      slotsInFile tree pattern place base baseDecl = .ok inherited ∧
      methods = inherited ++ ownMethods (fileText tree place) decl inherited.length := by
  have budget : maxChain - 1 = 30 + 1 := rfl
  rw [slotsInFile, budget, slotsOf] at resolved
  simp only [form, other, if_false] at resolved
  by_cases repeated : lowerString base ∈ [lowerString name]
  · simp [repeated] at resolved
  rw [if_neg repeated] at resolved
  cases declared : firstDeclaration? base (fileText tree place) with
  | none => simp [declared] at resolved
  | some baseDecl =>
    simp only [declared] at resolved
    obtain ⟨inherited, baseResolved, rfl⟩ := (map_eq_ok _ _ _).mp resolved
    have alone := slotsOf_mono _ _ _ _ _ _ baseResolved (maxChain - 1) [lowerString base] (by decide)
      (List.subset_append_right [lowerString name] [lowerString base])
    exact ⟨baseDecl, inherited, rfl, alone, rfl⟩

/-- The vtable of a derived declaration extends the vtable of its base.

Where a declaration that is found in a file derives from a base, its vtable begins with the slots of the base: those
of the root, or those that a lookup of the base finds in the same file. All others name the declaration itself, and
their indices go on without a gap.

The lookup of the base starts anew, with the whole room below the limit and without the request that led to it. A base
that was resolved with less room, and with more requests that are forbidden, is resolved to the same slots then, so
what the lookup finds is what was put in front. -/
theorem derived_extends_base (leads : LeadsToFile tree pattern place) (name base : String)
    (recurse : Bool) (filter : Filter) (decl : Declaration) (vtable : Vtable)
    (declared : firstDeclaration? name (fileText tree place) = some decl)
    (form : decl.form = .declarative base)
    (found : (find tree name pattern recurse filter).1 = .ok vtable) :
    ∃ inherited own, vtable.methods = inherited ++ own ∧
      (base = Vtable.rootInterface → inherited = Vtable.rootMethods) ∧
      (base ≠ Vtable.rootInterface → ∃ baseVtable,
        (find tree base pattern recurse filter).1 = .ok baseVtable ∧ baseVtable.methods = inherited) ∧
      ∀ (i : Nat) (m : Method), own[i]? = some m →
        m.interface = decl.name ∧ m.iid = some decl.iid ∧ m.index = ((inherited.length + i : Nat) : Int) := by
  obtain ⟨_, discovered, methods, resolved, rfl⟩ :=
    (find_eq_ok_iff_of_file leads name recurse filter vtable decl declared).mp found
  have ownTold (inherited : List Method) (i : Nat) (m : Method)
      (listed : (ownMethods (fileText tree place) decl inherited.length)[i]? = some m) :
      m.interface = decl.name ∧ m.iid = some decl.iid ∧ m.index = ((inherited.length + i : Nat) : Int) := by
    obtain ⟨interface, iid⟩ := ownMethods_declared _ decl _ m (List.mem_of_getElem? listed)
    exact ⟨interface, iid, ownMethods_index _ decl _ i m listed⟩
  by_cases root : base = Vtable.rootInterface
  · rw [slotsInFile, slotsOf] at resolved
    simp only [form, root, if_true] at resolved
    refine ⟨Vtable.rootMethods, ownMethods (fileText tree place) decl Vtable.rootMethods.length,
      (Except.ok.inj resolved).symm, fun _ => rfl, fun other => absurd root other, ?_⟩
    exact ownTold Vtable.rootMethods
  · obtain ⟨baseDecl, inherited, baseDeclared, alone, split⟩ :=
      slotsInFile_derived name base decl methods form root resolved
    refine ⟨inherited, ownMethods (fileText tree place) decl inherited.length, split,
      fun isRoot => absurd isRoot root, fun _ => ?_, ownTold inherited⟩
    have named : base ≠ "" := (base_of_firstDeclaration? declared form).1
    exact ⟨⟨baseDecl.name, inherited, some (Path.ofString pattern).toString⟩,
      (find_eq_ok_iff_of_file leads base recurse filter _ baseDecl baseDeclared).mpr
        ⟨named, discovered, inherited, alone, rfl⟩, rfl⟩

/-- The derived interface of a header has the slots of its base first. -/
theorem derived_vtable_extends_base :
    (find derivedTree "IDerived" "d2d1.h" false Filter.none).1 = .ok derivedVtable ∧
    ∃ inherited own, derivedVtable.methods = inherited ++ own ∧
      ("ibase" = Vtable.rootInterface → inherited = Vtable.rootMethods) ∧
      ("ibase" ≠ Vtable.rootInterface → ∃ baseVtable,
        (find derivedTree "ibase" "d2d1.h" false Filter.none).1 = .ok baseVtable ∧
          baseVtable.methods = inherited) ∧
      ∀ (i : Nat) (m : Method), own[i]? = some m → m.interface = "IDerived" ∧
        m.iid = some "\x7b00000000-0000-0000-0000-00000000000b\x7d" ∧
        m.index = ((inherited.length + i : Nat) : Int) := by
  have leads : LeadsToFile derivedTree "d2d1.h" ["d2d1.h"] := ⟨by decide +kernel, by decide +kernel⟩
  have found : (find derivedTree "IDerived" "d2d1.h" false Filter.none).1 = .ok derivedVtable := by
    decide +kernel
  exact ⟨found, derived_extends_base leads "IDerived" "ibase" false Filter.none
    ⟨0, 94, "IDerived", "\x7b00000000-0000-0000-0000-00000000000b\x7d", .declarative "ibase"⟩
    derivedVtable (by decide +kernel) rfl found⟩

end ComLayout.Lookup
