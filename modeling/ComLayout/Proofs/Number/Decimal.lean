/-!
# The written form of integers

An integer is written with its digits in base ten, behind a minus if it is negative.
-/

namespace ComLayout.Number

/-- The written form of an integer: digits, with a minus in front if it is negative. -/
theorem toList_toString_int (n : Int) :
    (toString n).toList = (if n < 0 then ['-'] else []) ++ Nat.toDigits 10 n.natAbs := by
  cases n with
  | ofNat n => exact Nat.toList_repr
  | negSucc n =>
    rw [if_pos (Int.negSucc_lt_zero n)]
    change ("-" ++ Nat.repr (n + 1)).toList = _
    rw [String.toList_append, Nat.toList_repr]
    rfl

/-- An integer is written with a minus and digits. -/
theorem mem_toString_int {n : Int} {c : Char} (held : c ∈ (toString n).toList) : c = '-' ∨ c.isDigit = true := by
  rw [toList_toString_int, List.mem_append] at held
  rcases held with sign | digits
  · split at sign
    · exact .inl (List.mem_singleton.mp sign)
    · exact absurd sign List.not_mem_nil
  · exact .inr (Nat.isDigit_of_mem_toDigits (by decide) (by decide) digits)

end ComLayout.Number
