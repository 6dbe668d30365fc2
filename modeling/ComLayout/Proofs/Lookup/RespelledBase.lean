import ComLayout.Proofs.Header.RespelledHeader
import ComLayout.Proofs.Lookup.Lineage

/-!
# The letter case of a base

A base is looked up without regard to case, as every interface is, but the root is known by its exact name. So
where the name of a base is spelled in another letter case, a lookup in the header has the same outcome, unless
only one spelling is the name of the root: then what derives from the root under this spelling is refused under
the other one, if the header does not declare an interface of that name.
-/

namespace ComLayout.Lookup

open Header Text

/-- A lookup is refused for a base that cannot be followed: it is not declared, or the chain that leads to it is
found not to end. -/
inductive Refused (base : String) : LookupError → Prop where
  | undeclared (interface path : String) : Refused base (.baseUnresolved interface base path)
  | endless (chain : List String) : Refused base (.inheritanceCycle chain)

/-- Two outcomes are the same, but that an undeclared base is told as it is spelled, and that a lookup which finds
the root under one spelling is refused under another. -/
inductive SameButBase (base other : String) {α : Type} : Except LookupError α → Except LookupError α → Prop where
  | same (outcome : Except LookupError α) : SameButBase base other outcome outcome
  | unresolved (interface path : String) :
      SameButBase base other (.error (.baseUnresolved interface base path))
        (.error (.baseUnresolved interface other path))
  | refused {error : LookupError} (found : α) (root : base = Vtable.rootInterface)
      (unlike : other ≠ Vtable.rootInterface) (refuses : Refused other error) :
      SameButBase base other (.ok found) (.error error)
  | found {error : LookupError} (found : α) (unlike : base ≠ Vtable.rootInterface)
      (root : other = Vtable.rootInterface) (refuses : Refused base error) :
      SameButBase base other (.error error) (.ok found)

namespace SameButBase

variable {base other : String} {α β : Type} {first second : Except LookupError α}

/-- Either spelling may come first. -/
theorem symm (alike : SameButBase base other first second) : SameButBase other base second first := by
  cases alike with
  | same => exact .same _
  | unresolved interface path => exact .unresolved interface path
  | refused found root unlike refuses => exact .found found unlike root refuses
  | found found unlike root refuses => exact .refused found root unlike refuses

/-- What is made of results is the same as they are. -/
theorem map (alike : SameButBase base other first second) (f : α → β) :
    SameButBase base other (first.map f) (second.map f) := by
  cases alike with
  | same => exact .same _
  | unresolved interface path => exact .unresolved interface path
  | refused found root unlike refuses => exact .refused (f found) root unlike refuses
  | found found unlike root refuses => exact .found (f found) unlike root refuses

end SameButBase

variable {r : BaseRespelling} {d e : Declaration}

/-- The own slots of a declaration are those of its counterpart. -/
theorem ownMethods_counterpart (solid : Solid d.name.toList) (counterpart : r.Counterpart d e) (first : Nat) :
    ownMethods r.text d first = ownMethods r.respelledText e first := by
  have grammar : e.form.grammar = d.form.grammar := by
    rcases counterpart.form with same | ⟨form, form₂⟩
    · rw [same]
    · rw [form, form₂]
      rfl
  rw [ownMethods, ownMethods, counterpart.stop, counterpart.name, counterpart.iid, grammar,
    BaseRespelling.scanMethods_respelled solid]

/-- A declaration whose base cannot be followed has no slots. -/
theorem refused_of_undeclared {text : List Char} {base : String} (form : d.form = .declarative base)
    (other : base ≠ Vtable.rootInterface) (undeclared : firstDeclaration? base text = none) (path : String)
    (budget : Nat) (chain : List String) :
    ∃ error, slotsOf text path budget chain d = .error error ∧ Refused base error := by
  rw [slotsOf.eq_def]
  simp only [form, other, undeclared, if_false]
  by_cases repeated : lowerString base ∈ chain
  · exact ⟨_, if_pos repeated, .endless _⟩
  · rw [if_neg repeated]
    cases budget with
    | zero => exact ⟨_, rfl, .endless _⟩
    | succ budget => exact ⟨_, rfl, .undeclared _ _⟩

/-- The base of a counterpart is the base up to case, and that of the root only if the base is. -/
theorem exists_base_counterpart {base : String} (counterpart : r.Counterpart d e)
    (form : d.form = .declarative base) (unlike : base ≠ Vtable.rootInterface)
    (rooted : r.otherName = Vtable.rootInterface → r.baseName = Vtable.rootInterface) :
    ∃ base₂, e.form = .declarative base₂ ∧ base₂ ≠ Vtable.rootInterface ∧
      Respelled base.toList base₂.toList ∧ (base₂ = base ∨ base = r.baseName ∧ base₂ = r.otherName) := by
  rcases counterpart.form with same | ⟨form₁, form₂⟩
  · exact ⟨base, same.trans form, unlike, .refl _, .inl rfl⟩
  · obtain rfl := DeclarationForm.declarative.inj (form.symm.trans form₁)
    exact ⟨_, form₂, fun root => unlike (rooted root), r.respelled_names, .inr ⟨rfl, rfl⟩⟩

/-- The base of a declaration that is found is a name without white space. -/
theorem named_base {text : List Char} {request base : String} (some_ : request.toList ≠ [])
    (declared : firstDeclaration? request text = some d) (form : d.form = .declarative base) :
    base.toList ≠ [] ∧ Solid base.toList := by
  have word := wordRun_of_declares (declares_of_firstDeclaration? some_ declared) form
  exact ⟨word.1, solid_of_wordRun word⟩

/-- A declaration and its counterpart have the same slots, or are refused alike. One step down the chain leads from
a declaration and its counterpart to their bases, which are counterparts again. -/
theorem slotsOf_counterpart (path : String) (budget : Nat) (chain : List String) (request : String)
    (some_ : request.toList ≠ []) (solid : Solid request.toList)
    (declared : firstDeclaration? request r.text = some d) (counterpart : r.Counterpart d e)
    (rooted : r.otherName = Vtable.rootInterface → r.baseName = Vtable.rootInterface)
    (undeclared : r.baseName = Vtable.rootInterface → r.otherName ≠ Vtable.rootInterface →
      firstDeclaration? r.otherName r.respelledText = none) :
    SameButBase r.baseName r.otherName (slotsOf r.text path budget chain d)
      (slotsOf r.respelledText path budget chain e) := by
  have solidName : Solid d.name.toList := solid_of_alike solid (sameWord_of_firstDeclaration? declared)
  have own (first : Nat) := ownMethods_counterpart solidName counterpart first
  fun_induction slotsOf r.text path budget chain d generalizing request e with
  | case1 budget chain d form =>
    have form₂ : e.form = .classic := by
      rcases counterpart.form with same | ⟨form₁, -⟩
      · exact same.trans form
      · simp [form] at form₁
    rw [slotsOf.eq_def]
    simp only [form₂, own]
    exact .same _
  | case2 budget chain d form =>
    rcases counterpart.form with same | ⟨form₁, form₂⟩
    · rw [slotsOf.eq_def]
      simp only [same, form, own, if_true]
      exact .same _
    · have root : r.baseName = Vtable.rootInterface := DeclarationForm.declarative.inj (form₁.symm.trans form)
      by_cases rootOther : r.otherName = Vtable.rootInterface
      · rw [slotsOf.eq_def]
        simp only [form₂, rootOther, own, if_true]
        exact .same _
      · obtain ⟨error, refusal, refuses⟩ :=
          refused_of_undeclared form₂ rootOther (undeclared root rootOther) path budget chain
        rw [refusal]
        exact .refused _ root rootOther refuses
  | case3 budget chain d base form unlike repeated =>
    obtain ⟨base₂, form₂, unlike₂, same, -⟩ := exists_base_counterpart counterpart form unlike rooted
    rw [slotsOf.eq_def]
    simp only [form₂, unlike₂, ← lowerString_respelled same, repeated, if_true, if_false]
    exact .same _
  | case4 chain d base form unlike fresh =>
    obtain ⟨base₂, form₂, unlike₂, same, -⟩ := exists_base_counterpart counterpart form unlike rooted
    rw [slotsOf.eq_def]
    simp only [form₂, unlike₂, ← lowerString_respelled same, fresh, if_false]
    exact .same _
  | case5 chain d base form unlike fresh budget missing =>
    obtain ⟨base₂, form₂, unlike₂, same, either⟩ := exists_base_counterpart counterpart form unlike rooted
    obtain ⟨someBase, solidBase⟩ := named_base some_ declared form
    have missing₂ : firstDeclaration? base₂ r.respelledText = none := by
      rw [← firstDeclaration?_congr (same.map_eq caseBlind_lower)]
      exact BaseRespelling.firstDeclaration?_eq_none_respelled someBase solidBase missing
    rw [slotsOf.eq_def]
    simp only [form₂, unlike₂, ← lowerString_respelled same, fresh, missing₂, if_false, counterpart.name]
    rcases either with rfl | ⟨rfl, rfl⟩
    · exact .same _
    · exact .unresolved _ _
  | case6 chain d base form unlike fresh budget baseDecl baseDeclared inductionHypothesis =>
    obtain ⟨base₂, form₂, unlike₂, same, -⟩ := exists_base_counterpart counterpart form unlike rooted
    obtain ⟨someBase, solidBase⟩ := named_base some_ declared form
    obtain ⟨baseDecl₂, baseDeclared₂, further⟩ :=
      BaseRespelling.firstDeclaration?_counterpart someBase solidBase baseDeclared
    rw [firstDeclaration?_congr (same.map_eq caseBlind_lower)] at baseDeclared₂
    have solidBaseName := solid_of_alike solidBase (sameWord_of_firstDeclaration? baseDeclared)
    have inherits := inductionHypothesis base someBase solidBase baseDeclared further solidBaseName
      (ownMethods_counterpart solidBaseName further)
    rw [slotsOf.eq_def _ _ _ _ e]
    simp only [form₂, unlike₂, ← lowerString_respelled same, fresh, baseDeclared₂, if_false, ← own]
    exact inherits.map _

section Files

variable {tree tree₂ : Tree} {pattern : String} {place place₂ : Location}

/-- Lookups in a file and in one with the other spelling have the same outcome, where the other spelling is the
root's name only if the base is. -/
theorem find_counterpart (leads : LeadsToFile tree pattern place) (leads₂ : LeadsToFile tree₂ pattern place₂)
    (text : fileText tree place = r.text) (text₂ : fileText tree₂ place₂ = r.respelledText) (name : String)
    (solid : Solid name.toList) (recurse : Bool)
    (rooted : r.otherName = Vtable.rootInterface → r.baseName = Vtable.rootInterface)
    (undeclared : r.baseName = Vtable.rootInterface → r.otherName ≠ Vtable.rootInterface →
      firstDeclaration? r.otherName r.respelledText = none) :
    ∃ outcome outcome₂ : Except LookupError Vtable,
      (find tree name pattern recurse Filter.none).1 = outcome.mapError .lookup ∧
      (find tree₂ name pattern recurse Filter.none).1 = outcome₂.mapError .lookup ∧
      SameButBase r.baseName r.otherName outcome outcome₂ := by
  by_cases named : name = ""
  · subst named
    exact ⟨.error .nameRequired, .error .nameRequired, rfl, rfl, .same _⟩
  have some_ : name.toList ≠ [] := fun nothing => named (String.toList_eq_nil_iff.mp nothing)
  rw [find_in_file leads name recurse named, find_in_file leads₂ name recurse named]
  simp only [slotsInFile, text, text₂]
  cases declared : firstDeclaration? name r.text with
  | none =>
    rw [BaseRespelling.firstDeclaration?_eq_none_respelled some_ solid declared]
    exact ⟨.error (.interfaceNotFound name pattern 1), .error (.interfaceNotFound name pattern 1), rfl, rfl, .same _⟩
  | some d =>
    obtain ⟨e, declared₂, counterpart⟩ := BaseRespelling.firstDeclaration?_counterpart some_ solid declared
    have slots := slotsOf_counterpart (Path.ofString pattern).toString (maxChain - 1) [lowerString name] name some_
      solid declared counterpart rooted undeclared
    rw [declared₂]
    simp only [counterpart.name]
    exact ⟨_, _, rfl, rfl, slots.map _⟩

/-- The base of a declaration in a header may be spelled in another letter case, neither spelling giving rise to a
keyword.

Where both or neither are the name of the root, or the header declares no interface of that name, a lookup of a name
without white space has the same outcome under both spellings, but that what derives from the root under one of them
is refused under the other. The root is the one name that is compared letter by letter.

Offsets and lines are the same in both headers. Whatever is read in one of them has its counterpart at the same offset
of the other, since the readers are blind to case in all but keywords, and none of these reaches over the base. So
both lookups locate the same declarations but for the base of one, and go on alike from there; no other spelling of
the root is declared where the root is not. -/
theorem find_respelled_base (leads : LeadsToFile tree pattern place) (leads₂ : LeadsToFile tree₂ pattern place₂)
    {front back declared : List Char} {base other : String}
    (text : fileText tree place = front ++ (base.toList ++ back))
    (text₂ : fileText tree₂ place₂ = front ++ (other.toList ++ back))
    (declares : Declares declared (front ++ (base.toList ++ back)) d) (form : d.form = .declarative base)
    (stop : d.stop = (front ++ base.toList).length) (respelled : Respelled base.toList other.toList)
    (free : NoKeyword base.toList back) (freeOther : NoKeyword other.toList back)
    (root : (base = Vtable.rootInterface ↔ other = Vtable.rootInterface) ∨
      firstDeclaration? Vtable.rootInterface (front ++ (base.toList ++ back)) = none)
    (name : String) (solid : Solid name.toList) (recurse : Bool) :
    ∃ outcome outcome₂ : Except LookupError Vtable,
      (find tree name pattern recurse Filter.none).1 = outcome.mapError .lookup ∧
      (find tree₂ name pattern recurse Filter.none).1 = outcome₂.mapError .lookup ∧
      SameButBase base other outcome outcome₂ := by
  obtain ⟨published, longest⟩ := published_of_declares declares form stop
  let r : BaseRespelling :=
    { front, back, published, longest, respelled, free, freeOther
      base := base.toList
      other := other.toList
      word := wordRun_of_declares declares form }
  have baseName : r.baseName = base := String.ofList_toList
  have otherName : r.otherName = other := String.ofList_toList
  rw [← baseName, ← otherName]
  have root : (r.baseName = Vtable.rootInterface ↔ r.otherName = Vtable.rootInterface) ∨
      firstDeclaration? Vtable.rootInterface r.text = none := by
    rw [baseName, otherName]
    exact root
  have undeclared {name : String} (same : Respelled Vtable.rootInterface.toList name.toList)
      (nothing : firstDeclaration? Vtable.rootInterface r.text = none) :
      firstDeclaration? name r.text = none ∧ firstDeclaration? name r.respelledText = none := by
    have nothing₂ : firstDeclaration? Vtable.rootInterface r.respelledText = none :=
      BaseRespelling.firstDeclaration?_eq_none_respelled (by decide) (by decide) nothing
    have small := same.map_eq caseBlind_lower
    rw [← firstDeclaration?_congr small, ← firstDeclaration?_congr small]
    exact ⟨nothing, nothing₂⟩
  by_cases rooted : r.otherName = Vtable.rootInterface → r.baseName = Vtable.rootInterface
  · refine find_counterpart (r := r) leads leads₂ text text₂ name solid recurse rooted fun isRoot unlike => ?_
    have nothing := root.resolve_left fun both => unlike (both.mp isRoot)
    exact (undeclared (isRoot ▸ r.respelled_names) nothing).2
  · push Not at rooted
    obtain ⟨isRoot, unlike⟩ := rooted
    have nothing := root.resolve_left fun both => unlike (both.mpr isRoot)
    obtain ⟨outcome₂, outcome, found₂, found, alike⟩ := find_counterpart (r := r.symm) leads₂ leads text₂ text name
      solid recurse (fun isBase => absurd isBase unlike)
      fun _ _ => (undeclared (isRoot ▸ r.respelled_names.symm) nothing).1
    exact ⟨outcome, outcome₂, found, found₂, alike.symm⟩

/-- A header up to the name of a base. -/
def beforeBase : String := "interface DECLSPEC_UUID(\"00000000-0000-0000-0000-00000000000b\") IPen : public "

/-- A header behind the name of a base, where the base is declared. -/
def behindBase : String :=
  "\ninterface DECLSPEC_UUID(\"00000000-0000-0000-0000-00000000000a\") ITool : public IUnknown\n"

/-- A tree with one header, in which the name of a base is spelled as given. -/
def treeWithBase (base : String) : Tree :=
  ⟨[], [(["pen.h"], (beforeBase ++ base ++ behindBase).toUTF8)], by simp [isEntryName]⟩

/-- A base in capitals is found as one in small letters. -/
theorem pen_respelled_base :
    LeadsToFile (treeWithBase "itool") "pen.h" ["pen.h"] ∧ LeadsToFile (treeWithBase "ITOOL") "pen.h" ["pen.h"] ∧
    ∃ outcome outcome₂ : Except LookupError Vtable,
      (find (treeWithBase "itool") "IPen" "pen.h" false Filter.none).1 = outcome.mapError .lookup ∧
      (find (treeWithBase "ITOOL") "IPen" "pen.h" false Filter.none).1 = outcome₂.mapError .lookup ∧
      SameButBase "itool" "ITOOL" outcome outcome₂ := by
  have leads : LeadsToFile (treeWithBase "itool") "pen.h" ["pen.h"] := ⟨by decide +kernel, by decide +kernel⟩
  have leads₂ : LeadsToFile (treeWithBase "ITOOL") "pen.h" ["pen.h"] := ⟨by decide +kernel, by decide +kernel⟩
  have text : fileText (treeWithBase "itool") ["pen.h"] =
      beforeBase.toList ++ ("itool".toList ++ behindBase.toList) := by decide +kernel
  have text₂ : fileText (treeWithBase "ITOOL") ["pen.h"] =
      beforeBase.toList ++ ("ITOOL".toList ++ behindBase.toList) := by decide +kernel
  have declared : firstDeclaration? "IPen" (beforeBase.toList ++ ("itool".toList ++ behindBase.toList)) =
      some ⟨0, 83, "IPen", "\x7b00000000-0000-0000-0000-00000000000b\x7d", .declarative "itool"⟩ := by decide +kernel
  have free : NoKeyword "itool".toList behindBase.toList := ⟨by decide, by decide, by decide +kernel⟩
  have freeOther : NoKeyword "ITOOL".toList behindBase.toList := ⟨by decide, by decide, by decide +kernel⟩
  exact ⟨leads, leads₂, find_respelled_base leads leads₂ text text₂
    (declares_of_firstDeclaration? (by decide) declared) rfl (by decide +kernel) (by decide) free freeOther
    (.inl (by decide)) "IPen" (by decide) false⟩

/-- The name of the root is not known in small letters: the same header is found under one spelling of the base and
refused under the other. -/
theorem pen_respelled_root :
    Respelled "IUnknown".toList "iunknown".toList ∧
      fileText (treeWithBase "IUnknown") ["pen.h"] =
        beforeBase.toList ++ ("IUnknown".toList ++ behindBase.toList) ∧
      fileText (treeWithBase "iunknown") ["pen.h"] =
        beforeBase.toList ++ ("iunknown".toList ++ behindBase.toList) ∧
      (firstDeclaration? "IPen" (fileText (treeWithBase "IUnknown") ["pen.h"])).map Declaration.form =
        some (.declarative "IUnknown") ∧
      (find (treeWithBase "IUnknown") "IPen" "pen.h" false Filter.none).1 =
        .ok ⟨"IPen", Vtable.rootMethods, some "pen.h"⟩ ∧
      (find (treeWithBase "iunknown") "IPen" "pen.h" false Filter.none).1 =
        .error (.lookup (.baseUnresolved "IPen" "iunknown" "pen.h")) := by
  refine ⟨?_, ?_, ?_, ?_, ?_, ?_⟩ <;> decide +kernel

end Files

end ComLayout.Lookup
