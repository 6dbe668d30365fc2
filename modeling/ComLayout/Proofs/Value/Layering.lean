import ComLayout.Value.Layer

/-!
# Looking up values in layered tables

Keys lead through nested tables to a value. Where a table is laid over another, they lead to the upper
value laid over the lower one, and to the lower value where the upper table has none. Two things have to
hold of the upper table along the keys: each table there has each key once, and no other value stands
where the keys have to go on.
-/

namespace ComLayout

namespace Value

/-- Whether a value is a table. -/
def isTable : Value → Bool
  | .table _ => true
  | _ => false

/-- What is there after an upper layer is put over a lower one; either may lack a value. -/
def overlay : (lower upper : Option Value) → Option Value
  | lower, none => lower
  | none, some value => some value
  | some old, some value => some (old.over value)

/-- A value that is no table replaces whatever lies below. -/
theorem over_of_upper (lower : Value) {upper : Value} (plain : upper.isTable = false) :
    lower.over upper = upper := by
  cases upper <;> simp_all [Value.over, isTable]

/-- What is no table is replaced by whatever lies above. -/
theorem over_of_lower {lower : Value} (upper : Value) (plain : lower.isTable = false) :
    lower.over upper = upper := by
  cases upper <;> cases lower <;> simp_all [Value.over, isTable]

/-- An upper value that is no table is what is there. -/
theorem overlay_of_upper (lower : Option Value) {value : Value} (plain : value.isTable = false) :
    overlay lower (some value) = some value := by
  cases lower <;> simp [overlay, over_of_upper _ plain]

/-- Unless tables meet, the upper value is what is there, and the lower one if there is no upper one. -/
theorem overlay_eq_or {lower upper : Option Value}
    (plain : (∀ value, upper = some value → value.isTable = false) ∨
      ∀ old, lower = some old → old.isTable = false) : overlay lower upper = upper.or lower := by
  rcases lower with _ | old <;> rcases upper with _ | value
  · rfl
  · rfl
  · rfl
  · rcases plain with plain | plain
    · simp [overlay, over_of_upper old (plain value rfl)]
    · simp [overlay, over_of_lower value (plain old rfl)]

/-- Nothing lies below: what is there is what is above. -/
theorem overlay_none (upper : Option Value) : overlay none upper = upper := by cases upper <;> rfl

/-- What is laid over a table is a table, unless it is no table itself. -/
theorem overlay_of_table (inner : Table) {upper : Option Value}
    (tables : ∀ value, upper = some value → value.isTable = true) :
    ∃ grown, overlay (some (.table inner)) upper = some (.table grown) := by
  rcases upper with _ | value
  · exact ⟨inner, rfl⟩
  · cases value with
    | table entries => exact ⟨Table.over inner entries, by rw [overlay, Value.over]⟩
    | _ => simpa [Value.isTable] using tables _ rfl

/-- A table that is laid over something is a table. -/
theorem overlay_table (lower : Option Value) (inner : Table) :
    ∃ grown, overlay lower (some (.table inner)) = some (.table grown) := by
  rcases lower with _ | value
  · exact ⟨inner, rfl⟩
  · cases value with
    | table entries => exact ⟨Table.over entries inner, by rw [overlay, Value.over]⟩
    | _ => exact ⟨inner, by rw [overlay, Value.over]; simp⟩

end Value

namespace Table

open Value (overlay)

/-- Each key occurs once. -/
def Distinct (table : Table) : Prop := (table.map Prod.fst).Nodup

instance (table : Table) : Decidable (Distinct table) := inferInstanceAs (Decidable (List.Nodup _))

/-- The table that stands at some place, which is empty if no table stands there. -/
def within : Option Value → Table
  | some (.table inner) => inner
  | _ => []

/-- What keys lead to in a table. -/
def at? : (keys : List String) → Table → Option Value
  | [], _ => none
  | [key], entries => entries.lookup key
  | key :: next :: keys, entries => at? (next :: keys) (within (entries.lookup key))

/-- Along keys each table has each key once, and nothing but tables stands before the last. -/
def Clear : (keys : List String) → Table → Prop
  | [], _ => True
  | [_], entries => Distinct entries
  | key :: next :: keys, entries =>
    Distinct entries ∧ (∀ value, entries.lookup key = some value → value.isTable = true) ∧
      Clear (next :: keys) (within (entries.lookup key))

/-- Keys that lead neither through nor to the place where others lead, nor the other way round. -/
def Apart (keys others : List String) : Prop := ¬ keys <+: others ∧ ¬ others <+: keys

/-- An empty table holds nothing. -/
theorem at?_nil (keys : List String) : at? keys [] = none := by
  induction keys with
  | nil => rfl
  | cons key keys inductionHypothesis =>
    cases keys with
    | nil => rfl
    | cons next more => exact inductionHypothesis

/-- Every way through an empty table is clear. -/
theorem clear_nil (keys : List String) : Clear keys [] := by
  induction keys with
  | nil => trivial
  | cons key keys inductionHypothesis =>
    cases keys with
    | nil => exact List.nodup_nil
    | cons next more => exact ⟨List.nodup_nil, by simp, inductionHypothesis⟩

/-- A table through which a way is clear has each key once. -/
theorem Clear.distinct {key : String} {keys : List String} {entries : Table}
    (clear : Clear (key :: keys) entries) : Distinct entries := by
  cases keys with
  | nil => exact clear
  | cons next more => exact clear.1

/-- A way to a key in a table is as clear as that to a key beside it. -/
theorem Clear.beside {header key : String} {entries : Table} (clear : Clear [header, key] entries)
    (other : String) : Clear [header, other] entries := clear

/-- Different keys in one table lead to different places. -/
theorem apart_beside {key other : String} (differs : other ≠ key) (header : String) :
    Apart [header, key] [header, other] := by
  constructor <;> simp [List.cons_prefix_cons, differs, Ne.symm differs]

/-- A key that does not occur leads to nothing. -/
theorem lookup_eq_none {entries : Table} {key : String} (absent : key ∉ entries.map Prod.fst) :
    entries.lookup key = none := by
  rw [List.lookup_eq_none_iff]
  intro entry member
  rw [bne_iff_ne]
  rintro rfl
  exact absent (List.mem_map_of_mem member)

/-- A key that is put occurs, and all others stay as they are. -/
theorem map_fst_put (key : String) (value : Value) (entries : Table) :
    (put key value entries).map Prod.fst =
      if key ∈ entries.map Prod.fst then entries.map Prod.fst else entries.map Prod.fst ++ [key] := by
  induction entries with
  | nil => rfl
  | cons entry rest inductionHypothesis =>
    obtain ⟨other, old⟩ := entry
    by_cases same : other = key
    · simp [put, same]
    · have apart : key ≠ other := fun equal => same equal.symm
      rw [put, if_neg same, List.map_cons, inductionHypothesis]
      by_cases later : key ∈ rest.map Prod.fst <;> simp [later, apart]

/-- Putting a value leaves each key there once. -/
theorem Distinct.put {entries : Table} (distinct : Distinct entries) (key : String) (value : Value) :
    Distinct (put key value entries) := by
  unfold Distinct
  rw [map_fst_put]
  split
  next => exact distinct
  next absent =>
    rw [List.nodup_append]
    refine ⟨distinct, by simp, ?_⟩
    rintro other among last member rfl
    exact absent (List.mem_singleton.mp member ▸ among)

/-- A key of a table laid over another leads to the one value laid over the other. -/
theorem lookup_over (lower : Table) {upper : Table} (distinct : Distinct upper) (key : String) :
    (Table.over lower upper).lookup key = overlay (lower.lookup key) (upper.lookup key) := by
  induction upper generalizing lower with
  | nil => rw [over_nil]; rfl
  | cons entry rest inductionHypothesis =>
    obtain ⟨first, value⟩ := entry
    obtain ⟨once, others⟩ := List.nodup_cons.mp distinct
    rw [Table.over, inductionHypothesis _ others]
    by_cases same : key = first
    · subst same
      rw [lookup_put, lookup_eq_none once, List.lookup_cons_self]
      cases lower.lookup key <;> rfl
    · have apart : (key == first) = false := beq_false_of_ne same
      rw [lookup_put_of_ne first key _ lower same, List.lookup_cons, apart]

/-- What a key leads to depends on no other key of the table below. -/
theorem lookup_over_congr {lower other : Table} {key : String} (same : other.lookup key = lower.lookup key)
    (upper : Table) : (Table.over other upper).lookup key = (Table.over lower upper).lookup key := by
  induction upper generalizing lower other with
  | nil => rwa [over_nil, over_nil]
  | cons entry rest inductionHypothesis =>
    obtain ⟨first, value⟩ := entry
    rw [Table.over, Table.over]
    apply inductionHypothesis
    by_cases here : key = first
    · rw [← here, lookup_put, lookup_put, same]
    · rw [lookup_put_of_ne _ _ _ _ here, lookup_put_of_ne _ _ _ _ here, same]

/-- Where keys lead further there is a table. -/
theorem lookup_of_at? {header key : String} {table : Table} {value : Value}
    (found : at? [header, key] table = some value) : ∃ inner, table.lookup header = some (.table inner) := by
  cases there : table.lookup header with
  | none => simp [at?, there, within] at found
  | some value =>
    cases value with
    | table inner => exact ⟨inner, rfl⟩
    | _ => simp [at?, there, within] at found

/-- What keys lead to in a table that is laid over whatever stands below. -/
theorem at?_within_overlay (keys : List String) (inner : Table)
    (layered : ∀ under, at? keys (Table.over under inner) = overlay (at? keys under) (at? keys inner))
    (lower : Option Value) :
    at? keys (within (overlay lower (some (.table inner)))) =
      overlay (at? keys (within lower)) (at? keys inner) := by
  have alone : at? keys inner = overlay (at? keys []) (at? keys inner) := by
    rw [at?_nil, Value.overlay_none]
  rcases lower with _ | old
  · exact alone
  · cases old with
    | table under => simpa only [overlay, Value.over, within] using layered under
    | _ => simpa only [overlay, Value.over, within] using alone

/-- Along a way that is clear in the upper table, keys lead to the one value laid over the other. -/
theorem at?_over (lower : Table) {upper : Table} {keys : List String} (clear : Clear keys upper) :
    at? keys (Table.over lower upper) = overlay (at? keys lower) (at? keys upper) := by
  induction keys generalizing lower upper with
  | nil => rfl
  | cons key keys inductionHypothesis =>
    cases keys with
    | nil => exact lookup_over lower clear key
    | cons next more =>
      obtain ⟨distinct, tables, onward⟩ := clear
      simp only [at?, lookup_over lower distinct]
      rcases above : upper.lookup key with _ | value
      · simp only [overlay, within, at?_nil]
      · cases value with
        | table inner =>
          rw [above] at onward
          exact at?_within_overlay _ inner (fun under => inductionHypothesis under onward) _
        | _ => simpa [Value.isTable] using tables _ above

end Table

end ComLayout
