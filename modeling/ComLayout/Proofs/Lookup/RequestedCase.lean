import ComLayout.Proofs.Header.Declared
import ComLayout.Proofs.Lookup.Lineage
import ComLayout.Proofs.Text.Respelling

/-!
# The letter case of the requested name

A requested name enters a lookup three times: in the search for its declaration, which sees no more of it than
its small letters, as the first entry of the chain of requests, where it stands in lower case, and in the message
that no header declares it. From there on only the name as declared matters. So names that differ in the case of
ASCII letters have one outcome, and only that message tells them apart.
-/

namespace ComLayout.Lookup

open Header Text

/-- Two outcomes are the same, but that a name which no header declares is told as it was requested. -/
inductive SameButRequest : Except SearchFault Vtable → Except SearchFault Vtable → Prop where
  | same (outcome : Except SearchFault Vtable) : SameButRequest outcome outcome
  | undeclared (name other pattern : String) (searched : Nat) :
      SameButRequest (.error (.lookup (.interfaceNotFound name pattern searched)))
        (.error (.lookup (.interfaceNotFound other pattern searched)))

variable {name other : String}

/-- Respelled names have the same first declaration. -/
theorem firstDeclaration?_respelled (respelled : Respelled name.toList other.toList) (text : List Char) :
    firstDeclaration? name text = firstDeclaration? other text :=
  firstDeclaration?_congr (respelled.map_eq caseBlind_lower) text

/-- Respelled names are declared by the same header, in the same place. -/
theorem declaring?_respelled (respelled : Respelled name.toList other.toList) (tree : Tree)
    (cs : List Candidate) : declaring? tree name cs = declaring? tree other cs := by
  simp only [declaring?, firstDeclaration?_respelled respelled]

/-- A declaration has the same vtable under respelled names. -/
theorem vtableOf_respelled (respelled : Respelled name.toList other.toList) (tree : Tree) (c : Candidate)
    (decl : Declaration) : vtableOf tree name c decl = vtableOf tree other c decl := by
  rw [vtableOf, vtableOf, lowerString_respelled respelled]

/-- A lookup does not depend on the letter case of the requested name.

Under names that differ in the case of ASCII letters alone it finds the same vtable, or fails for the same reason,
with the same chain, the same missing base or the same pattern. Only where the name is not declared does the error
repeat the request as it was spelled.

The request enters a lookup at two places. The headers are searched for a declaration of the name, which is compared
without regard to case, and the guard against cycles keeps the request in lower case. From the declaration that was
found on, only the names in the header matter. -/
theorem find_ignores_request_case (tree : Tree) (pattern : String) (recurse : Bool) (filter : Filter)
    (respelled : Respelled name.toList other.toList) :
    SameButRequest (find tree name pattern recurse filter).1 (find tree other pattern recurse filter).1 := by
  by_cases named : name = ""
  · subst named
    have unnamed : other = "" := String.toList_eq_nil_iff.mp (List.map_eq_nil_iff.mp respelled.symm)
    rw [unnamed]
    exact .same _
  have otherNamed : other ≠ "" := by
    rintro rfl
    exact named (String.toList_eq_nil_iff.mp (List.map_eq_nil_iff.mp respelled))
  rw [find_result tree name pattern recurse filter named,
    find_result tree other pattern recurse filter otherNamed]
  cases Discovery.discover tree pattern recurse filter with
  | error fault => exact .same _
  | ok cs =>
    simp only [foundAmong]
    by_cases nothing : cs = []
    · rw [if_pos nothing, if_pos nothing]
      exact .same _
    rw [if_neg nothing, if_neg nothing, declaring?_respelled respelled]
    cases declaring? tree other cs with
    | none => exact .undeclared name other pattern cs.length
    | some found =>
      simp only [vtableOf_respelled respelled]
      exact .same _

/-- A derived interface is found in capitals as it is found in small letters. -/
theorem derived_ignores_request_case :
    Respelled "IDERIVED".toList "iderived".toList ∧
    (find derivedTree "iderived" "d2d1.h" false Filter.none).1 = .ok derivedVtable ∧
    SameButRequest (find derivedTree "IDERIVED" "d2d1.h" false Filter.none).1
      (find derivedTree "iderived" "d2d1.h" false Filter.none).1 := by
  have respelled : Respelled "IDERIVED".toList "iderived".toList := by decide
  exact ⟨respelled, by decide +kernel, find_ignores_request_case derivedTree "d2d1.h" false Filter.none respelled⟩

end ComLayout.Lookup
