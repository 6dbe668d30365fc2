import ComLayout.Value.Basic

/-!
# Layering tables

A table is laid over another key by key: where both hold tables these are layered in turn, and
everywhere else the upper value replaces the lower one whole.
-/

namespace ComLayout

mutual

/-- Lay a value over another. -/
def Value.over (lower : Value) : (upper : Value) → Value
  | .table entries =>
    match lower with
    | .table under => .table (Table.over under entries)
    | _ => .table entries
  | upper => upper

/-- Lay entries over a table, in order. -/
def Table.over (lower : Table) : (upper : List (String × Value)) → Table
  | [] => lower
  | (key, value) :: rest =>
    Table.over
      (Table.put key (match lower.lookup key with
        | some old => Value.over old value
        | none => value) lower)
      rest

end

/-- Nothing laid over a table leaves it as it is. -/
theorem Table.over_nil (lower : Table) : Table.over lower [] = lower := by simp [Table.over]

end ComLayout
