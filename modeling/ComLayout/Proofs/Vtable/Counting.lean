import ComLayout.Vtable.Summary
import Mathlib.Algebra.BigOperators.Group.List.Basic
import Mathlib.Algebra.GroupWithZero.Nat
import Mathlib.Data.List.Induction
import Mathlib.Data.List.Nodup

/-!
# Counting slots

A summary goes through the slots once and keeps a table of the interfaces that it has met. At each moment the
table is determined by the names that were met: it lists each of them once, where it first occurred, with the
number of its occurrences. So a summary depends on the order of the slots only in the order of its table.
-/

namespace ComLayout.Summary

section FirstOccurrences

/-- A name at the end of a list is new unless it stands before. -/
theorem eraseDups_concat (names : List String) (name : String) :
    (names ++ [name]).eraseDups = if name ∈ names then names.eraseDups else names.eraseDups ++ [name] := by
  rw [List.eraseDups_append]
  split
  case isTrue seen => simp [List.removeAll, seen]
  case isFalse new => simp [List.removeAll, new, List.eraseDups_cons]

/-- Names that are kept once stand in the order in which they first occur. -/
theorem pairwise_eraseDups (names : List String) :
    names.eraseDups.Pairwise fun a b => names.idxOf a < names.idxOf b := by
  induction names using List.reverseRecOn with
  | nil => simp
  | append_singleton names name inductionHypothesis =>
    have before {other : String} (seen : other ∈ names.eraseDups) :
        (names ++ [name]).idxOf other = names.idxOf other :=
      List.idxOf_append_of_mem (List.mem_eraseDups.mp seen)
    have onward : names.eraseDups.Pairwise fun a b => (names ++ [name]).idxOf a < (names ++ [name]).idxOf b := by
      refine inductionHypothesis.imp_of_mem fun first second ahead => ?_
      rwa [before first, before second]
    rw [eraseDups_concat]
    split
    case isTrue => exact onward
    case isFalse new =>
      rw [List.pairwise_append]
      refine ⟨onward, List.pairwise_singleton _ _, fun other seen last isLast => ?_⟩
      rw [List.mem_singleton.mp isLast, before seen, List.idxOf_append_of_notMem new]
      exact Nat.lt_add_right _ (List.idxOf_lt_length_of_mem (List.mem_eraseDups.mp seen))

/-- No name is kept twice. -/
theorem nodup_eraseDups (names : List String) : names.eraseDups.Nodup :=
  (pairwise_eraseDups names).imp fun ahead same => absurd ahead (by simp [same])

end FirstOccurrences

section Tables

/-- One more name is tallied behind the others. -/
theorem counts_concat (names : List String) (name : String) :
    counts (names ++ [name]) = tally name (counts names) := by
  simp [counts]

/-- One more occurrence in a table without repetitions: only the name's own entry changes, or it is added. -/
theorem tally_map (name : String) {names : List String} (distinct : names.Nodup) (count : String → Nat) :
    tally name (names.map fun other => (other, count other)) =
      (names.map fun other => (other, count other + if other = name then 1 else 0)) ++
        if name ∈ names then [] else [(name, 1)] := by
  induction names with
  | nil => rfl
  | cons first rest inductionHypothesis =>
    obtain ⟨apart, distinct⟩ := List.nodup_cons.mp distinct
    by_cases same : first = name
    · subst same
      have others : (rest.map fun other => (other, count other + if other = first then 1 else 0)) =
          rest.map fun other => (other, count other) :=
        List.map_congr_left fun other seen => by simp [show other ≠ first from fun same => apart (same ▸ seen)]
      simp [tally, others]
    · have other : ¬ name = first := fun equal => same equal.symm
      simp [tally, same, other, inductionHypothesis distinct]

/-- The names stand in the order in which they first occur, each with the number of its occurrences. -/
theorem counts_eq (names : List String) :
    counts names = names.eraseDups.map fun name => (name, names.count name) := by
  induction names using List.reverseRecOn with
  | nil => rfl
  | append_singleton names name inductionHypothesis =>
    have counted (other : String) : (names ++ [name]).count other =
        names.count other + if other = name then 1 else 0 := by
      rw [List.count_append, List.count_singleton]
      simp only [beq_iff_eq, eq_comm (a := name)]
    rw [counts_concat, inductionHypothesis, tally_map name (nodup_eraseDups names), eraseDups_concat]
    simp only [counted, List.mem_eraseDups]
    split
    case isTrue => rw [List.append_nil]
    case isFalse new => simp [List.count_eq_zero.mpr new]

/-- The names of a table are those that were met. -/
theorem keys_counts (names : List String) : (counts names).map Prod.fst = names.eraseDups := by
  rw [counts_eq, List.map_map]
  exact List.map_id _

/-- A name is listed with the number of its occurrences, if it occurs. -/
theorem lookup_counts (name : String) (names : List String) :
    (counts names).lookup name = if name ∈ names then some (names.count name) else none := by
  rw [counts_eq]
  split
  case isTrue seen => exact List.lookup_graph _ (List.mem_eraseDups.mpr seen)
  case isFalse new =>
    rw [List.lookup_eq_none_iff]
    rintro ⟨other, count⟩ listed
    obtain ⟨_, seen, same⟩ := List.mem_map.mp listed
    obtain ⟨rfl, -⟩ := Prod.mk.inj same
    simpa using fun equal : name = _ => new (equal ▸ List.mem_eraseDups.mp seen)

/-- A name is counted as often as it occurs. -/
theorem countOf_counts (name : String) (names : List String) : countOf name (counts names) = names.count name := by
  rw [countOf, lookup_counts]
  split
  case isTrue => rfl
  case isFalse new => exact (List.count_eq_zero.mpr new).symm

/-- One more occurrence raises the sum of the counts by one. -/
theorem sum_tally (name : String) (table : List (String × Nat)) :
    ((tally name table).map Prod.snd).sum = (table.map Prod.snd).sum + 1 := by
  induction table with
  | nil => rfl
  | cons entry rest inductionHypothesis =>
    rw [tally]
    split
    case isTrue => simp [Nat.add_right_comm]
    case isFalse => simp [inductionHypothesis, Nat.add_assoc]

/-- The counts add up to the number of names that were met. -/
theorem sum_counts (names : List String) : ((counts names).map Prod.snd).sum = names.length := by
  induction names using List.reverseRecOn with
  | nil => rfl
  | append_singleton names name inductionHypothesis =>
    rw [counts_concat, sum_tally, inductionHypothesis, List.length_append, List.length_singleton]

/-- The same names in another order have the same entries in another order. -/
theorem perm_counts {names others : List String} (reordered : names.Perm others) :
    (counts names).Perm (counts others) := by
  have firsts : names.eraseDups.Perm others.eraseDups := by
    rw [List.perm_ext_iff_of_nodup (nodup_eraseDups names) (nodup_eraseDups others)]
    intro name
    rw [List.mem_eraseDups, List.mem_eraseDups, reordered.mem_iff]
  have same : (fun name => (name, names.count name)) = fun name => (name, others.count name) := by
    funext name
    rw [reordered.count_eq]
  rw [counts_eq, counts_eq, same]
  exact firsts.map _

end Tables

section Slots

/-- What the slots of a vtable say of its summary. -/
structure Exact (vtable : Vtable) (s : Summary) : Prop where
  total : s.total = vtable.methods.length
  /-- An interface of a slot is listed with the number of its slots, and no other name is. -/
  listed : ∀ name, s.byInterface.lookup name =
    if name ∈ vtable.methods.map (·.interface) then some ((vtable.methods.map (·.interface)).count name) else none
  /-- The interfaces are listed once, in the order in which they first occur. -/
  order : (s.byInterface.map Prod.fst).Pairwise fun a b =>
    (vtable.methods.map (·.interface)).idxOf a < (vtable.methods.map (·.interface)).idxOf b
  sum : (s.byInterface.map Prod.snd).sum = s.total
  own : s.own = (s.byInterface.lookup vtable.interface).getD 0
  split : (s.own : Int) + s.inherited = s.total
  inherited_nonneg : 0 ≤ s.inherited

/-- A summary counts the slots exactly.

The interfaces are listed in the order of their first slots, each with the number of its slots, and these add up to
the total. Own and inherited slots split the total, and neither is negative. Slots in another order change the summary
only in the order in which the interfaces are listed.

The table of counts is kept while going through the names: a name that is listed is counted up where it stands, and a
new one is put behind. By induction it lists each name once, in the order of first occurrences, with its number of
occurrences, and all else is read off from that. -/
theorem ofVtable_exact (vtable : Vtable) :
    Exact vtable (ofVtable vtable) ∧ ∀ methods, methods.Perm vtable.methods →
      ∃ byInterface, byInterface.Perm (ofVtable vtable).byInterface ∧
        ofVtable { vtable with methods } = { ofVtable vtable with byInterface } := by
  have inherited : (ofVtable vtable).inherited = ((ofVtable vtable).total : Int) - (ofVtable vtable).own := rfl
  have few : (ofVtable vtable).own ≤ (ofVtable vtable).total := by
    have counted : (ofVtable vtable).own = (vtable.methods.map (·.interface)).count vtable.interface :=
      countOf_counts _ _
    rw [counted]
    exact List.count_le_length.trans_eq (List.length_map ..)
  constructor
  · exact
      { total := rfl
        listed := fun name => lookup_counts name _
        order := by
          rw [ofVtable, keys_counts]
          exact pairwise_eraseDups _
        sum := (sum_counts _).trans (List.length_map ..)
        own := rfl
        split := by omega
        inherited_nonneg := by omega }
  · intro methods reordered
    have names : (methods.map (·.interface)).Perm (vtable.methods.map (·.interface)) := reordered.map _
    refine ⟨counts (methods.map (·.interface)), perm_counts names, ?_⟩
    simp only [ofVtable, countOf_counts, names.count_eq, reordered.length_eq]

/-- A vtable in which the slots of an interface stand apart, and one name that no slot has. -/
def shuffled : Vtable :=
  ⟨"IPen", [⟨7, "Lift", none, "ITool", none⟩, ⟨0, "Draw", some 3, "IPen", none⟩, ⟨-1, "Drop", none, "ITool", none⟩,
    ⟨7, "Lift", none, "ISharp", none⟩], none⟩

/-- In the reverse order the interfaces are listed in another order, and all else is the same. -/
theorem shuffled_exact :
    ofVtable shuffled = ⟨4, 1, 3, [("ITool", 2), ("IPen", 1), ("ISharp", 1)]⟩ ∧ Exact shuffled (ofVtable shuffled) ∧
      shuffled.methods.reverse.Perm shuffled.methods ∧
      ofVtable { shuffled with methods := shuffled.methods.reverse } =
        ⟨4, 1, 3, [("ISharp", 1), ("ITool", 2), ("IPen", 1)]⟩ ∧
      ∃ byInterface, byInterface.Perm (ofVtable shuffled).byInterface ∧
        ofVtable { shuffled with methods := shuffled.methods.reverse } = { ofVtable shuffled with byInterface } := by
  obtain ⟨counted, reordered⟩ := ofVtable_exact shuffled
  have reversed : shuffled.methods.reverse.Perm shuffled.methods := List.reverse_perm _
  exact ⟨by decide, counted, reversed, by decide, reordered _ reversed⟩

end Slots

end ComLayout.Summary
