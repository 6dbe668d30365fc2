/-!
# Entries under keys

A list of entries is looked up by the keys of its entries.
-/

namespace ComLayout

/-- Without the entries under one key, the entries under the others are found as before. -/
theorem lookup_without {κ β : Type} [BEq κ] [LawfulBEq κ] [DecidableEq κ] (entries : List (κ × β))
    (gone key : κ) :
    (entries.filter fun entry => entry.1 != gone).lookup key =
      if key = gone then none else entries.lookup key := by
  induction entries with
  | nil => simp
  | cons entry rest inductionHypothesis =>
    by_cases here : entry.1 = gone
    · rw [List.filter_cons_of_neg (by simp [here]), inductionHypothesis, List.lookup_cons]
      split
      next => rfl
      next other => rw [beq_false_of_ne (here ▸ other)]
    · rw [List.filter_cons_of_pos (by simp [here]), List.lookup_cons, List.lookup_cons,
        inductionHypothesis]
      split
      next found =>
        have apart : key ≠ gone := fun same => here (eq_of_beq found ▸ same)
        rw [if_neg apart]
      next => rfl

end ComLayout
