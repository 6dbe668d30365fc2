import ComLayout.Vtable.Basic

/-!
# Summary of a vtable

How many slots a vtable has, how many of them each interface declares, and how many are the requested
interface's own. The interfaces are listed in the order in which they first occur.
-/

namespace ComLayout

/-- Counts of a vtable's slots. -/
structure Summary where
  total : Nat
  own : Nat
  inherited : Int
  byInterface : List (String × Nat)
deriving DecidableEq, Repr

namespace Summary

/-- Count one more occurrence of a name; a name that is new goes to the end. -/
def tally (name : String) : List (String × Nat) → List (String × Nat)
  | [] => [(name, 1)]
  | (other, count) :: rest =>
    if other = name then (other, count + 1) :: rest else (other, count) :: tally name rest

/-- How often each name occurs, in the order of first occurrence. -/
def counts (names : List String) : List (String × Nat) := names.foldl (fun acc name => tally name acc) []

/-- The count of a name, zero if it is not listed. -/
def countOf (name : String) (table : List (String × Nat)) : Nat := (table.lookup name).getD 0

/-- The summary of a vtable. -/
def ofVtable (vtable : Vtable) : Summary :=
  let table := counts (vtable.methods.map (·.interface))
  let own := countOf vtable.interface table
  ⟨vtable.methods.length, own, (vtable.methods.length : Int) - own, table⟩

end Summary

end ComLayout
