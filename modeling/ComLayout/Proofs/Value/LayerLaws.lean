import ComLayout.Proofs.Value.Layering

/-!
# Laws of layering

A table in which each key occurs once is known by the order of its keys and by what each key leads to. From
both follow the laws of layering: a table laid over itself changes nothing, nor does it a second time over the
same table, and three layers can be joined from below or from above, as long as nothing that is no table stands
in one of them where the others have tables. What keys lead to in the upper table prevails, and what only the
lower table has stays.
-/

namespace ComLayout

/-- A value in which every table has each key once. -/
inductive Value.Proper : Value → Prop
  | plain {value : Value} (plain : value.isTable = false) : Proper value
  | table {entries : Table} (distinct : Table.Distinct entries)
      (inner : ∀ key value, entries.lookup key = some value → Proper value) : Proper (.table entries)

namespace Table

open Value (overlay)

section Ways

variable {table : Table}

/-- Without keys nothing is reached. -/
theorem ne_nil_of_at? {keys : List String} {value : Value} (found : at? keys table = some value) : keys ≠ [] := by
  rintro rfl
  simp [at?] at found

/-- Behind the first of several keys the others go on. -/
theorem at?_cons (key : String) {keys : List String} (more : keys ≠ []) (table : Table) :
    at? (key :: keys) table = at? keys (within (table.lookup key)) := by
  cases keys with
  | nil => exact absurd rfl more
  | cons next rest => rfl

/-- Keys lead on from where keys before them lead. -/
theorem at?_append {front back : List String} (filled : front ≠ []) (more : back ≠ []) (table : Table) :
    at? (front ++ back) table = at? back (within (at? front table)) := by
  induction front generalizing table with
  | nil => exact absurd rfl filled
  | cons key keys inductionHypothesis =>
    rw [List.cons_append, at?_cons key (List.append_ne_nil_of_right_ne_nil keys more)]
    cases keys with
    | nil => rfl
    | cons next rest => rw [inductionHypothesis (List.cons_ne_nil next rest), at?_cons key (List.cons_ne_nil next rest)]

/-- Where keys lead, the first of them does. -/
theorem exists_lookup_of_at? {key : String} {keys : List String} {value : Value}
    (found : at? (key :: keys) table = some value) : ∃ first, table.lookup key = some first := by
  cases there : table.lookup key with
  | some first => exact ⟨first, rfl⟩
  | none =>
    cases keys with
    | nil => simp [at?, there] at found
    | cons next more => simp [at?, there, within, at?_nil] at found

/-- Where keys lead further there is a table. -/
theorem isTable_of_at?_append {front back : List String} {value last : Value} (more : back ≠ [])
    (there : at? front table = some value) (found : at? (front ++ back) table = some last) :
    value.isTable = true := by
  rw [at?_append (ne_nil_of_at? there) more, there] at found
  cases value with
  | table inner => rfl
  | _ => simp [within, at?_nil] at found

end Ways

section Proper

variable {table : Table}

/-- A proper table has each key once. -/
theorem distinct_of_proper (proper : (Value.table table).Proper) : Distinct table := by
  cases proper with
  | plain plain => exact Bool.noConfusion plain
  | table distinct inner => exact distinct

/-- What a key leads to in a proper table is proper. -/
theorem proper_of_lookup (proper : (Value.table table).Proper) {key : String} {value : Value}
    (found : table.lookup key = some value) : value.Proper := by
  cases proper with
  | plain plain => exact Bool.noConfusion plain
  | table distinct inner => exact inner key value found

/-- The empty table is proper. -/
theorem proper_nil : (Value.table []).Proper := .table List.nodup_nil (by simp)

/-- The table that stands at a key of a proper table is proper. -/
theorem proper_within (proper : (Value.table table).Proper) (key : String) :
    (Value.table (within (table.lookup key))).Proper := by
  cases found : table.lookup key with
  | none => exact proper_nil
  | some value =>
    cases value with
    | table inner => exact proper_of_lookup proper found
    | _ => exact proper_nil

/-- Through a proper table a way is clear if nothing but tables stands before its end. -/
theorem clear_of_tables {keys : List String} (proper : (Value.table table).Proper)
    (tables : ∀ front back value, front ++ back = keys → back ≠ [] → at? front table = some value →
      value.isTable = true) : Clear keys table := by
  induction keys generalizing table with
  | nil => trivial
  | cons key keys inductionHypothesis =>
    cases keys with
    | nil => exact distinct_of_proper proper
    | cons next more =>
      refine ⟨distinct_of_proper proper, ?_, inductionHypothesis (proper_within proper key) ?_⟩
      · intro value found
        exact tables [key] (next :: more) value rfl (List.cons_ne_nil next more) found
      · intro front back value split filled found
        exact tables (key :: front) back value (congrArg (key :: ·) split) filled
          ((at?_cons key (ne_nil_of_at? found) table).trans found)

end Proper

section Laws

variable {lower middle upper : Table}

/-- A table in which each key occurs once is known by the order of its keys and by what each leads to. -/
theorem eq_of_lookup {table other : Table} (distinct : Distinct table)
    (keys : other.map Prod.fst = table.map Prod.fst) (same : ∀ key, other.lookup key = table.lookup key) :
    other = table := by
  induction table generalizing other with
  | nil => exact List.map_eq_nil_iff.mp keys
  | cons entry rest inductionHypothesis =>
    obtain ⟨key, value⟩ := entry
    obtain ⟨⟨otherKey, otherValue⟩, otherRest, rfl⟩ : ∃ first more, other = first :: more :=
      List.exists_cons_of_ne_nil fun none => by simp [none] at keys
    obtain ⟨rfl, keysRest⟩ : otherKey = key ∧ otherRest.map Prod.fst = rest.map Prod.fst := by
      simpa using keys
    obtain ⟨once, distinctRest⟩ := List.nodup_cons.mp distinct
    have here := same otherKey
    rw [List.lookup_cons_self, List.lookup_cons_self, Option.some.injEq] at here
    have later : otherRest = rest := by
      refine inductionHypothesis distinctRest keysRest fun later => ?_
      by_cases first : later = otherKey
      · rw [first, lookup_eq_none once, lookup_eq_none (keysRest ▸ once)]
      · have apart : (later == otherKey) = false := beq_false_of_ne first
        simpa only [List.lookup_cons, apart] using same later
    rw [here, later]

/-- The keys of a table laid over another: those of the lower one, and then the others of the upper one. -/
theorem map_fst_over (lower : Table) (distinct : Distinct upper) :
    (lower.over upper).map Prod.fst =
      lower.map Prod.fst ++ (upper.map Prod.fst).filter (· ∉ lower.map Prod.fst) := by
  induction upper generalizing lower with
  | nil => simp [over_nil]
  | cons entry rest inductionHypothesis =>
    obtain ⟨key, value⟩ := entry
    obtain ⟨once, distinctRest⟩ := List.nodup_cons.mp distinct
    rw [Table.over, inductionHypothesis _ distinctRest, map_fst_put]
    by_cases held : key ∈ lower.map Prod.fst
    · rw [if_pos held, List.map_cons, List.filter_cons_of_neg (by simpa using held)]
    · have others : (rest.map Prod.fst).filter (· ∉ lower.map Prod.fst ++ [key]) =
          (rest.map Prod.fst).filter (· ∉ lower.map Prod.fst) := by
        refine List.filter_congr fun other member => ?_
        have apart : other ≠ key := fun same => once (same ▸ member)
        simp [apart]
      rw [if_neg held, others, List.map_cons, List.filter_cons_of_pos (by simpa using held), List.append_assoc,
        List.singleton_append]

/-- A table that is laid over another leaves each key there once. -/
theorem Distinct.over (distinct : Distinct lower) (upper : Table) : Distinct (lower.over upper) := by
  induction upper generalizing lower with
  | nil => rwa [over_nil]
  | cons entry rest inductionHypothesis =>
    rw [Table.over]
    exact inductionHypothesis (distinct.put entry.1 _)

end Laws

end Table

namespace Value

open Table

/-- Laying a table over a table. -/
theorem over_tables (lower upper : Table) : (table lower).over (table upper) = table (lower.over upper) := by
  rw [Value.over]

/-- What is laid over a proper value, and is proper itself, leaves a proper one. -/
theorem Proper.over {lower upper : Value} (properLower : lower.Proper) (properUpper : upper.Proper) :
    (lower.over upper).Proper := by
  induction properUpper generalizing lower with
  | plain plain =>
    rw [over_of_upper lower plain]
    exact .plain plain
  | @table above distinct inner inductionHypothesis =>
    cases properLower with
    | plain plain =>
      rw [over_of_lower _ plain]
      exact .table distinct inner
    | @table below distinctBelow innerBelow =>
      rw [over_tables]
      refine .table (distinctBelow.over above) fun key value found => ?_
      rw [lookup_over below distinct] at found
      rcases there : below.lookup key with _ | old <;> rcases here : above.lookup key with _ | new <;>
        rw [there, here] at found
      · simp [overlay] at found
      · exact Option.some.inj found ▸ inner key new here
      · exact Option.some.inj found ▸ innerBelow key old there
      · exact Option.some.inj found ▸ inductionHypothesis key new here (innerBelow key old there)

/-- A proper value laid over itself is there as before. -/
theorem over_self {value : Value} (proper : value.Proper) : value.over value = value := by
  induction proper with
  | plain plain => exact over_of_upper _ plain
  | @table entries distinct inner inductionHypothesis =>
    rw [over_tables]
    refine congrArg table (eq_of_lookup distinct ?_ fun key => ?_)
    · simp [map_fst_over entries distinct]
    · rw [lookup_over entries distinct]
      cases found : entries.lookup key with
      | none => rfl
      | some value => exact congrArg some (inductionHypothesis key value found)

/-- A proper value laid over another a second time changes nothing more. -/
theorem over_again {lower upper : Value} (properLower : lower.Proper) (properUpper : upper.Proper) :
    (lower.over upper).over upper = lower.over upper := by
  induction properUpper generalizing lower with
  | plain plain => rw [over_of_upper _ plain, over_of_upper _ plain]
  | @table above distinct inner inductionHypothesis =>
    have whole : (table above).Proper := .table distinct inner
    cases properLower with
    | plain plain => rw [over_of_lower _ plain, over_self whole]
    | @table below distinctBelow innerBelow =>
      rw [over_tables, over_tables]
      refine congrArg table (eq_of_lookup (distinctBelow.over above) ?_ fun key => ?_)
      · rw [map_fst_over _ distinct, map_fst_over below distinct]
        simp +contextual [List.filter_eq_nil_iff]
      · rw [lookup_over _ distinct, lookup_over below distinct]
        rcases there : below.lookup key with _ | old <;> rcases here : above.lookup key with _ | new
        · rfl
        · exact congrArg some (over_self (inner key new here))
        · rfl
        · exact congrArg some (inductionHypothesis key new here (innerBelow key old there))

end Value

namespace Table

/-- Where keys lead to something in each of three tables, it is a table in all of them or in none. -/
def Agree (lower middle upper : Table) : Prop :=
  ∀ keys below between above, at? keys lower = some below → at? keys middle = some between →
    at? keys upper = some above → below.isTable = between.isTable ∧ between.isTable = above.isTable

/-- Tables that agree do so below each key. -/
theorem Agree.within {lower middle upper : Table} (agree : Agree lower middle upper) (key : String) :
    Agree (within (lower.lookup key)) (within (middle.lookup key)) (within (upper.lookup key)) := by
  intro keys below between above first second third
  have more : keys ≠ [] := ne_nil_of_at? first
  exact agree (key :: keys) below between above ((at?_cons key more lower).trans first)
    ((at?_cons key more middle).trans second) ((at?_cons key more upper).trans third)

end Table

namespace Value

open Table

/-- Three layers of values can be joined from below or from above, if they agree. Only where all three layers have a
value does the order of joining them matter. -/
theorem over_assoc {lower middle upper : Value} (properLower : lower.Proper) (properMiddle : middle.Proper)
    (properUpper : upper.Proper) (below : lower.isTable = middle.isTable) (above : middle.isTable = upper.isTable)
    (agree : Agree (within (some lower)) (within (some middle)) (within (some upper))) :
    (lower.over middle).over upper = lower.over (middle.over upper) := by
  induction properMiddle generalizing lower upper with
  | plain plain =>
    rw [plain] at above
    rw [over_of_upper _ above.symm, over_of_upper _ above.symm, over_of_upper _ above.symm]
  | @table between distinct inner inductionHypothesis =>
    cases properLower with
    | plain plain => exact absurd (plain.symm.trans below) Bool.false_ne_true
    | @table under distinctUnder innerUnder =>
      cases properUpper with
      | plain plain => exact absurd (plain.symm.trans above.symm) Bool.false_ne_true
      | @table top distinctTop innerTop =>
        rw [over_tables, over_tables, over_tables, over_tables]
        have distinctAbove : Distinct (between.over top) := distinct.over top
        refine congrArg table (eq_of_lookup (distinctUnder.over _) ?_ fun key => ?_)
        · rw [map_fst_over _ distinctTop, map_fst_over under distinct, map_fst_over under distinctAbove,
            map_fst_over between distinctTop, List.filter_append, List.filter_filter, List.append_assoc]
          congr 2
          refine List.filter_congr fun key _ => ?_
          by_cases first : key ∈ under.map Prod.fst <;> simp [first]
        · rw [lookup_over _ distinctTop, lookup_over under distinct, lookup_over under distinctAbove,
            lookup_over between distinctTop]
          rcases first : under.lookup key with _ | old <;> rcases second : between.lookup key with _ | value <;>
            rcases third : top.lookup key with _ | new <;> try rfl
          obtain ⟨sameBelow, sameAbove⟩ := agree [key] old value new first second third
          have onward := agree.within key
          simp only [Table.within, first, second, third] at onward
          exact congrArg some (inductionHypothesis key value second (innerUnder key old first)
            (innerTop key new third) sameBelow sameAbove onward)

end Value

namespace Table

open Value (overlay)

variable {lower middle upper : Table}

/-- Keys that lead through a proper upper table as far as it has tables there lead to the one value laid over
the other. -/
theorem at?_over_of_tables (lower : Table) {keys : List String} (proper : (Value.table upper).Proper)
    (tables : ∀ front back value, front ++ back = keys → back ≠ [] → at? front upper = some value →
      value.isTable = true) : at? keys (lower.over upper) = overlay (at? keys lower) (at? keys upper) :=
  at?_over lower (clear_of_tables proper tables)

/-- Layering is a merge in which the upper table prevails.

Laid over another table a second time, or over itself, a table changes nothing. What keys lead to in the upper table,
if it is no table, they lead to in the layered one. What they lead to in the lower table stays, if the upper one has
nothing there, nor a value that is no table on the way. And of three layers, if the tables agree on what is a table,
the middle one can be joined with the lower or with the upper one first.

Each law is proved for values of any nesting, by induction on them, and holds of tables as such. What a key of a
layered table leads to is what is made of both values of the key, and the keys stand in the order of the lower table,
with the new ones of the upper table behind them; so two layered tables are equal if they have the same keys in the
same order and the same value for each. Only where all three layers have a value for a key does the order of joining
them matter. -/
theorem over_prevails (properLower : (Value.table lower).Proper) (properMiddle : (Value.table middle).Proper)
    (properUpper : (Value.table upper).Proper) :
    (lower.over upper).over upper = lower.over upper ∧
      lower.over lower = lower ∧
      (∀ keys value, at? keys upper = some value → value.isTable = false →
        at? keys (lower.over upper) = some value) ∧
      (∀ keys value, at? keys lower = some value → value.isTable = false → at? keys upper = none →
        (∀ front, front <+: keys → ∀ above, at? front upper = some above → above.isTable = true) →
          at? keys (lower.over upper) = some value) ∧
      (Agree lower middle upper → (lower.over middle).over upper = lower.over (middle.over upper)) := by
  refine ⟨?again, ?itself, ?above, ?below, ?joined⟩
  case again =>
    have twice := Value.over_again properLower properUpper
    rw [Value.over_tables, Value.over_tables] at twice
    exact Value.table.inj twice
  case itself =>
    have once := Value.over_self properLower
    rw [Value.over_tables] at once
    exact Value.table.inj once
  case above =>
    intro keys value found plain
    rw [at?_over_of_tables lower properUpper, found, Value.overlay_of_upper _ plain]
    rintro front back between rfl more there
    exact isTable_of_at?_append more there found
  case below =>
    intro keys value found _ absent tables
    rw [at?_over_of_tables lower properUpper, found, absent]
    · rfl
    · rintro front back between rfl _ there
      exact tables front (List.prefix_append front back) between there
  case joined =>
    intro agree
    have joined := Value.over_assoc properLower properMiddle properUpper rfl rfl agree
    rw [Value.over_tables, Value.over_tables, Value.over_tables, Value.over_tables] at joined
    exact Value.table.inj joined

/-- A table is proper if each key occurs once and all its values are. -/
theorem proper_of_members {table : Table} (distinct : Distinct table) (members : ∀ entry ∈ table, entry.2.Proper) :
    (Value.table table).Proper := by
  refine .table distinct fun key value found => ?_
  obtain ⟨before, after, rfl, -⟩ := List.lookup_eq_some_iff.mp found
  exact members (key, value) (by simp)

/-- A table is proper if each key occurs once and none of its values is a table. -/
theorem proper_of_plain {table : Table} (distinct : Distinct table)
    (plain : ∀ entry ∈ table, entry.2.isTable = false) : (Value.table table).Proper :=
  proper_of_members distinct fun entry member => .plain (plain entry member)

/-- The settings of a file. -/
def fileSettings : Table :=
  [("path", .text "sdk"), ("output", .table [("out_dir", .text "a"), ("overwrite", .bool true)])]

/-- The settings that variables give, in a section that the file has and in another one. -/
def variableSettings : Table :=
  [("output", .table [("out_dir", .text "b")]), ("lookup", .table [("interface", .text "IPen")])]

/-- The settings that a command line gives. -/
def commandSettings : Table :=
  [("lookup", .table [("interface", .text "IBrush"), ("recurse", .bool true)]), ("path", .text "inc")]

/-- Three layers, each two of which share a key. No key occurs in all three. -/
theorem settings_prevail :
    (fileSettings.over variableSettings).over variableSettings = fileSettings.over variableSettings ∧
      fileSettings.over fileSettings = fileSettings ∧
      at? ["output", "out_dir"] (fileSettings.over variableSettings) = some (.text "b") ∧
      at? ["output", "overwrite"] (fileSettings.over variableSettings) = some (.bool true) ∧
      (fileSettings.over commandSettings).over variableSettings =
        fileSettings.over (commandSettings.over variableSettings) := by
  have properFile : (Value.table fileSettings).Proper := by
    refine proper_of_members (by decide) ?_
    simp only [fileSettings, List.forall_mem_cons]
    exact ⟨.plain rfl, proper_of_plain (by decide) (by decide), List.forall_mem_nil _⟩
  have properVariables : (Value.table variableSettings).Proper := by
    refine proper_of_members (by decide) ?_
    simp only [variableSettings, List.forall_mem_cons]
    exact ⟨proper_of_plain (by decide) (by decide), proper_of_plain (by decide) (by decide), List.forall_mem_nil _⟩
  have properCommand : (Value.table commandSettings).Proper := by
    refine proper_of_members (by decide) ?_
    simp only [commandSettings, List.forall_mem_cons]
    exact ⟨proper_of_plain (by decide) (by decide), .plain rfl, List.forall_mem_nil _⟩
  have agree : Agree fileSettings commandSettings variableSettings := by
    intro keys below between above first second third
    obtain ⟨key, more, rfl⟩ := List.exists_cons_of_ne_nil (ne_nil_of_at? first)
    have among {table : Table} {value : Value} (found : at? (key :: more) table = some value) :
        key ∈ table.map Prod.fst := by
      obtain ⟨value, there⟩ := exists_lookup_of_at? found
      exact Decidable.byContradiction fun absent => by simp [lookup_eq_none absent] at there
    have inFile : key = "path" ∨ key = "output" := by simpa [fileSettings] using among first
    rcases inFile with rfl | rfl
    · exact absurd (among third) (by decide)
    · exact absurd (among second) (by decide)
  obtain ⟨again, itself, above, below, joined⟩ := over_prevails properFile properCommand properVariables
  refine ⟨again, itself, above _ _ rfl rfl, below _ _ rfl rfl rfl ?_, joined agree⟩
  rintro front leads value found
  obtain rfl | ⟨rest, rfl, rfl | rfl⟩ :
      front = [] ∨ ∃ rest, front = "output" :: rest ∧ (rest = [] ∨ rest = ["overwrite"]) := by
    simpa [List.prefix_cons_iff] using leads
  · exact absurd found (by simp [at?])
  · cases found
    rfl
  · exact absurd found (by simp [at?, within, variableSettings, List.lookup_cons])

end Table

end ComLayout
