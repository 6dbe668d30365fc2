import ComLayout.Proofs.Steps
import ComLayout.Proofs.Value.Layering
import ComLayout.Settings.Environment

/-!
# What a variable changes

A variable puts its value where its keys lead, and nothing else in the table differs. So a variable
whose keys lead elsewhere can be read before or after it with the same effect. From this, by induction
over the variables, a layer with a variable holds what the layer without it holds, and the value of the
variable besides.
-/

namespace ComLayout

namespace Table

/-- Keys that lead elsewhere after a common first key. -/
theorem Apart.tail {key : String} {keys others : List String} (apart : Apart (key :: keys) (key :: others)) :
    Apart keys others :=
  ⟨fun leads => apart.1 (List.cons_prefix_cons.mpr ⟨rfl, leads⟩),
    fun leads => apart.2 (List.cons_prefix_cons.mpr ⟨rfl, leads⟩)⟩

/-- No keys at all lead nowhere else. -/
theorem Apart.ne_nil {keys others : List String} (apart : Apart keys others) : keys ≠ [] ∧ others ≠ [] :=
  ⟨fun empty => apart.1 (empty ▸ List.nil_prefix), fun empty => apart.2 (empty ▸ List.nil_prefix)⟩

/-- Keys that lead elsewhere than a single key do not begin with it. -/
theorem Apart.first_ne {key other : String} {rest : List String} (apart : Apart [key] (other :: rest)) :
    other ≠ key := by
  rintro rfl
  exact apart.1 (List.cons_prefix_cons.mpr ⟨rfl, List.nil_prefix⟩)

/-- A table that differs from another in nothing but the value where keys lead. -/
inductive PutAt (value : Value) : (keys : List String) → (table grown : Table) → Prop
  | last {key : String} {table grown : Table} (led : grown.lookup key = some value)
      (frame : ∀ other, other ≠ key → grown.lookup other = table.lookup other) :
      PutAt value [key] table grown
  | through {key next : String} {keys : List String} {table grown inner : Table}
      (tables : ∀ old, table.lookup key = some old → old.isTable = true)
      (led : grown.lookup key = some (.table inner))
      (frame : ∀ other, other ≠ key → grown.lookup other = table.lookup other)
      (deeper : PutAt value (next :: keys) (within (table.lookup key)) inner) :
      PutAt value (key :: next :: keys) table grown

/-- The keys lead to the value. -/
theorem PutAt.at?_self {value : Value} {keys : List String} {table grown : Table}
    (changed : PutAt value keys table grown) : at? keys grown = some value := by
  induction changed with
  | last led frame => exact led
  | through tables led frame deeper inductionHypothesis => simpa only [at?, led, within] using inductionHypothesis

/-- Keys that lead elsewhere lead to what they did. -/
theorem PutAt.at?_apart {value : Value} {keys others : List String} {table grown : Table}
    (changed : PutAt value keys table grown) (apart : Apart keys others) :
    at? others grown = at? others table := by
  induction changed generalizing others with
  | @last key table grown led frame =>
    obtain ⟨other, rest, rfl⟩ := List.exists_cons_of_ne_nil apart.ne_nil.2
    have differs : other ≠ key := apart.first_ne
    cases rest with
    | nil => exact frame other differs
    | cons next more => simp only [at?, frame other differs]
  | @through key next keys table grown inner tables led frame deeper inductionHypothesis =>
    obtain ⟨other, rest, rfl⟩ := List.exists_cons_of_ne_nil apart.ne_nil.2
    by_cases same : other = key
    · subst same
      obtain ⟨second, more, rfl⟩ := List.exists_cons_of_ne_nil apart.tail.ne_nil.2
      simpa only [at?, led, within] using inductionHypothesis apart.tail
    · cases rest with
      | nil => exact frame other same
      | cons second more => simp only [at?, frame other same]

/-- Putting a value at another first key on both sides changes nothing about the difference. -/
theorem PutAt.put {value : Value} {key : String} {keys : List String} {table grown : Table}
    (changed : PutAt value (key :: keys) table grown) {other : String} (differs : other ≠ key)
    (new : Value) : PutAt value (key :: keys) (put other new table) (Table.put other new grown) := by
  have apart : key ≠ other := fun equal => differs equal.symm
  have framed (frame : ∀ third, third ≠ key → grown.lookup third = table.lookup third) :
      ∀ third, third ≠ key →
        (Table.put other new grown).lookup third = (Table.put other new table).lookup third := by
    intro third away
    by_cases same : third = other
    · rw [same, lookup_put, lookup_put]
    · rw [lookup_put_of_ne _ _ _ _ same, lookup_put_of_ne _ _ _ _ same, frame third away]
  cases changed with
  | last led frame => exact .last (by rw [lookup_put_of_ne _ _ _ _ apart, led]) (framed frame)
  | through tables led frame deeper =>
    have kept : (Table.put other new table).lookup key = table.lookup key :=
      lookup_put_of_ne _ _ _ _ apart
    exact .through (by rwa [kept]) (by rw [lookup_put_of_ne _ _ _ _ apart, led]) (framed frame)
      (by rwa [kept])

end Table

namespace Value

/-- A text spells a truth value or a number; else it is a list if it has a comma, and a text if it has
none. -/
theorem ofText_cases (raw : String) :
    (∃ b, ofText raw = .bool b) ∨ (∃ n, ofText raw = .int n) ∨ (∃ x, ofText raw = .real x) ∨
      (',' ∈ raw.toList ∧ ofText raw = .list ((itemsOf raw.toList).map .text)) ∨
      (',' ∉ raw.toList ∧ ofText raw = .text raw) := by
  cases truth : boolOf? raw.toList with
  | some b => exact .inl ⟨b, by simp [ofText, truth]⟩
  | none =>
    cases number : numberOf? raw.toList with
    | some value =>
      have read : ofText raw = value := by simp [ofText, truth, number]
      rw [read]
      unfold numberOf? at number
      split at number
      next =>
        obtain ⟨x, -, rfl⟩ := Option.map_eq_some_iff.mp number
        exact .inr (.inr (.inl ⟨x, rfl⟩))
      next =>
        obtain ⟨n, -, rfl⟩ := Option.map_eq_some_iff.mp number
        exact .inr (.inl ⟨n, rfl⟩)
    | none =>
      by_cases comma : ',' ∈ raw.toList
      · exact .inr (.inr (.inr (.inl ⟨comma, by simp [ofText, truth, number, listOf?, comma]⟩)))
      · exact .inr (.inr (.inr (.inr ⟨comma, by simp [ofText, truth, number, listOf?, comma]⟩)))

/-- A text never spells a table. -/
theorem isTable_ofText (raw : String) : (ofText raw).isTable = false := by
  rcases ofText_cases raw with ⟨b, read⟩ | ⟨n, read⟩ | ⟨x, read⟩ | ⟨-, read⟩ | ⟨-, read⟩ <;> rw [read] <;> rfl

end Value

namespace Environment

open Table (Apart Clear PutAt within at?)

/-- The value at the first of several keys after a value was put where they lead. -/
def placed (value : Value) : (keys : List String) → (old : Option Value) → Except EnvironmentFault Value
  | [], _ => .ok value
  | key :: keys, old =>
    if old.all Value.isTable then (insert value (key :: keys) (within old)).map .table
    else .error (if keys = [] then .below else .deepBelow)

/-- Of a table only the value at the first key matters for what is put below it. -/
theorem insert_cons (value : Value) (key : String) (keys : List String) (table : Table) :
    insert value (key :: keys) table =
      (placed value keys (table.lookup key)).map fun new => Table.put key new table := by
  cases keys with
  | nil => rfl
  | cons next more =>
    rw [insert]
    · rcases table.lookup key with _ | old
      · simp only [placed, Option.all_none, if_true, within]
        cases insert value (next :: more) [] <;> rfl
      · cases old with
        | table inner =>
          simp only [placed, Option.all_some, Value.isTable, if_true, within]
          cases insert value (next :: more) inner <;> rfl
        | _ => simp [placed, Value.isTable, Except.map]
    · simp

/-- Where a table or nothing stands at the first key, the value is put into it. -/
theorem placed_of_tables (value : Value) (next : String) (keys : List String) {old : Option Value}
    (tables : ∀ inner, old = some inner → inner.isTable = true) :
    placed value (next :: keys) old = (insert value (next :: keys) (within old)).map .table := by
  have fits : old.all Value.isTable = true := by
    cases old with
    | none => rfl
    | some inner => exact tables inner rfl
  rw [placed, if_pos fits]

/-- A value that was put where keys lead is the one difference. -/
theorem putAt_of_insert {value : Value} {keys : List String} {table grown : Table} (led : keys ≠ [])
    (inserted : insert value keys table = .ok grown) : PutAt value keys table grown := by
  induction keys generalizing table grown with
  | nil => exact absurd rfl led
  | cons key keys inductionHypothesis =>
    rw [insert_cons] at inserted
    have frame (new : Value) : ∀ other, other ≠ key →
        (Table.put key new table).lookup other = table.lookup other :=
      fun other differs => Table.lookup_put_of_ne key other new table differs
    cases keys with
    | nil =>
      obtain rfl := Except.ok.inj inserted
      exact .last (Table.lookup_put key value table) (frame value)
    | cons next more =>
      by_cases tables : (table.lookup key).all Value.isTable = true
      · simp only [placed, tables, if_true] at inserted
        cases deeper : insert value (next :: more) (within (table.lookup key)) with
        | error fault => simp [deeper, Except.map] at inserted
        | ok inner =>
          simp only [deeper, Except.map, Except.ok.injEq] at inserted
          subst inserted
          refine .through ?_ (Table.lookup_put key _ table) (frame _) (inductionHypothesis (by simp) deeper)
          intro old found
          simpa [found] using tables
      · simp [placed, tables, Except.map] at inserted

/-- A value can be put where a clear way leads. -/
theorem insert_of_clear (value : Value) {keys : List String} {table : Table} (led : keys ≠ [])
    (clear : Clear keys table) : ∃ grown, insert value keys table = .ok grown := by
  induction keys generalizing table with
  | nil => exact absurd rfl led
  | cons key keys inductionHypothesis =>
    cases keys with
    | nil => exact ⟨_, rfl⟩
    | cons next more =>
      obtain ⟨-, tables, onward⟩ := clear
      obtain ⟨inner, inserted⟩ := inductionHypothesis (by simp) onward
      exact ⟨_, by rw [insert_cons, placed_of_tables value next more tables, inserted]; rfl⟩

/-- A way stays clear when a value is put at its end or elsewhere. Only below the same first key can the value touch
the rest of the way. -/
theorem clear_insert {value : Value} {keys others : List String} {table grown : Table}
    (clear : Clear keys table) (place : others = keys ∨ Apart keys others)
    (inserted : insert value others table = .ok grown) : Clear keys grown := by
  induction keys generalizing others table grown with
  | nil => trivial
  | cons key keys inductionHypothesis =>
    have led : others ≠ [] := by
      rcases place with rfl | apart
      · simp
      · exact apart.ne_nil.2
    obtain ⟨other, rest, rfl⟩ := List.exists_cons_of_ne_nil led
    rw [insert_cons] at inserted
    cases new : placed value rest (table.lookup other) with
    | error fault => simp [new, Except.map] at inserted
    | ok put =>
      obtain rfl : Table.put other put table = grown := by simpa [new, Except.map] using inserted
      have distinct : Table.Distinct (Table.put other put table) := clear.distinct.put other put
      cases keys with
      | nil => exact distinct
      | cons next more =>
        obtain ⟨-, tables, onward⟩ := clear
        by_cases same : other = key
        · subst same
          have further : rest = next :: more ∨ Apart (next :: more) rest :=
            place.imp (fun equal => (List.cons.inj equal).2) Apart.tail
          have filled : rest ≠ [] := by
            rcases further with rfl | apart
            · simp
            · exact apart.ne_nil.2
          obtain ⟨second, others, rfl⟩ := List.exists_cons_of_ne_nil filled
          rw [placed_of_tables value second others tables] at new
          cases below : insert value (second :: others) (within (table.lookup other)) with
          | error fault => simp [below, Except.map] at new
          | ok inner =>
            obtain rfl : Value.table inner = put := by simpa [below, Except.map] using new
            refine ⟨distinct, by simp [Table.lookup_put, Value.isTable], ?_⟩
            rw [Table.lookup_put]
            exact inductionHypothesis onward further below
        · have kept : (Table.put other put table).lookup key = table.lookup key :=
            Table.lookup_put_of_ne _ _ _ _ fun equal => same equal.symm
          exact ⟨distinct, by rwa [kept], by rwa [kept]⟩

/-- Two outcomes that are the same fault, or tables that differ in nothing but the value where keys
lead. -/
def PutInto (value : Value) (keys : List String) : (without including : Except EnvironmentFault Table) → Prop
  | .error fault, .error other => other = fault
  | .ok table, .ok grown => PutAt value keys table grown
  | _, _ => False

/-- Either both outcomes are the same fault, or the one value is the difference. -/
theorem PutInto.outcomes {value : Value} {keys : List String} {without including : Except EnvironmentFault Table}
    (changed : PutInto value keys without including) :
    (∃ fault, without = .error fault ∧ including = .error fault) ∨
      ∃ table grown, without = .ok table ∧ including = .ok grown ∧ PutAt value keys table grown := by
  rcases without with fault | table <;> rcases including with other | grown
  · exact .inl ⟨fault, rfl, congrArg Except.error changed⟩
  · exact changed.elim
  · exact changed.elim
  · exact .inr ⟨table, grown, rfl, rfl, changed⟩

/-- What differs in a table differs in the table around it. -/
theorem PutInto.through {value : Value} {key next : String} {keys : List String} {table grown : Table}
    (frame : ∀ other, other ≠ key → grown.lookup other = table.lookup other)
    {without including : Except EnvironmentFault Table} (deeper : PutInto value (next :: keys) without including) :
    PutInto value (key :: next :: keys)
      ((without.map .table).map fun new => Table.put key new table)
      ((including.map .table).map fun new => Table.put key new grown) := by
  rcases without with fault | inner <;> rcases including with other | innerGrown
  · exact deeper
  · exact deeper
  · exact deeper
  · refine PutAt.through ?_ (Table.lookup_put key _ grown) ?_ ?_
    · simp [Table.lookup_put, Value.isTable]
    · intro other away
      rw [Table.lookup_put_of_ne _ _ _ _ away, Table.lookup_put_of_ne _ _ _ _ away, frame other away]
    · rw [Table.lookup_put]
      exact deeper

/-- A value that is put elsewhere leaves the difference as it is. Below the same first key the difference lies
deeper in the table that stands there on both sides. -/
theorem putInto_insert {value : Value} {keys : List String} {table grown : Table}
    (changed : PutAt value keys table grown) (new : Value) {others : List String}
    (apart : Apart keys others) :
    PutInto value keys (insert new others table) (insert new others grown) := by
  induction changed generalizing others with
  | @last key table grown led frame =>
    obtain ⟨other, rest, rfl⟩ := List.exists_cons_of_ne_nil apart.ne_nil.2
    have differs : other ≠ key := apart.first_ne
    rw [insert_cons, insert_cons, frame other differs]
    cases placed new rest (table.lookup other) with
    | error fault => rfl
    | ok put => exact (PutAt.last led frame).put differs put
  | @through key next keys table grown inner tables led frame deeper inductionHypothesis =>
    obtain ⟨other, rest, rfl⟩ := List.exists_cons_of_ne_nil apart.ne_nil.2
    by_cases same : other = key
    · subst same
      obtain ⟨second, more, rfl⟩ := List.exists_cons_of_ne_nil apart.tail.ne_nil.2
      rw [insert_cons, insert_cons, placed_of_tables new second more tables, led,
        placed_of_tables new second more (by simp [Value.isTable])]
      exact PutInto.through frame (inductionHypothesis apart.tail)
    · rw [insert_cons, insert_cons, frame other same]
      cases placed new rest (table.lookup other) with
      | error fault => rfl
      | ok put => exact (PutAt.through tables led frame deeper).put same put

/-- A variable gives no setting, or one where other keys lead. -/
def Elsewhere (keys : List String) (entry : String × String) : Prop :=
  ∀ others, keysOf? entry.1.toList = some others → Apart keys others

/-- The variables behind others add to the layer of those. -/
theorem layerFrom_append (table : Table) (before after : List (String × String)) :
    layerFrom table (before ++ after) = layerFrom table before >>= fun t => layerFrom t after := by
  induction before generalizing table with
  | nil => rfl
  | cons entry rest inductionHypothesis =>
    obtain ⟨name, raw⟩ := entry
    simp only [List.cons_append, layerFrom]
    cases keysOf? name.toList with
    | none => exact inductionHypothesis table
    | some keys =>
      cases inserted : insert (Value.ofText raw) keys table with
      | error fault => simp [inserted, bind, Except.bind]
      | ok grown => simpa [inserted, bind, Except.bind] using inductionHypothesis grown

/-- Variables leave each key at the top there once. -/
theorem distinct_layerFrom {environment : List (String × String)} {table layered : Table}
    (distinct : Table.Distinct table) (read : layerFrom table environment = .ok layered) :
    Table.Distinct layered := by
  induction environment generalizing table with
  | nil =>
    obtain rfl := Except.ok.inj read
    exact distinct
  | cons entry rest inductionHypothesis =>
    obtain ⟨name, raw⟩ := entry
    rw [layerFrom] at read
    split at read
    next => exact inductionHypothesis distinct read
    next keys _ =>
      obtain ⟨grown, inserted, read⟩ := bind_eq_ok.mp read
      refine inductionHypothesis ?_ read
      cases keys with
      | nil =>
        obtain rfl := Except.ok.inj inserted
        exact distinct
      | cons key more =>
        rw [insert_cons] at inserted
        obtain ⟨value, -, rfl⟩ := (map_eq_ok _ _ _).mp inserted
        exact distinct.put key value

/-- The layer of the environment has each key at the top once. -/
theorem distinct_layer {environment : List (String × String)} {layered : Table}
    (read : layer environment = .ok layered) : Table.Distinct layered := by
  have empty : Table.Distinct [] := List.nodup_nil
  exact distinct_layerFrom empty read

/-- A way stays clear while variables put values at its end or elsewhere. -/
theorem clear_layerFrom {keys : List String} {environment : List (String × String)}
    {table layered : Table} (clear : Clear keys table)
    (places : ∀ entry ∈ environment, ∀ others, keysOf? entry.1.toList = some others →
      others = keys ∨ Apart keys others)
    (read : layerFrom table environment = .ok layered) : Clear keys layered := by
  induction environment generalizing table with
  | nil =>
    obtain rfl := Except.ok.inj read
    exact clear
  | cons entry rest inductionHypothesis =>
    obtain ⟨name, raw⟩ := entry
    have later : ∀ entry ∈ rest, ∀ others, keysOf? entry.1.toList = some others →
        others = keys ∨ Apart keys others :=
      fun entry member => places entry (List.mem_cons_of_mem _ member)
    rw [layerFrom] at read
    cases named : keysOf? name.toList with
    | none =>
      simp only [named] at read
      exact inductionHypothesis clear later read
    | some others =>
      simp only [named] at read
      obtain ⟨grown, inserted, read⟩ := bind_eq_ok.mp read
      have place := places (name, raw) List.mem_cons_self others named
      exact inductionHypothesis (clear_insert clear place inserted) later read

/-- In the layer of the environment a way is clear if each variable puts its value at the end or elsewhere. -/
theorem clear_layer {keys : List String} {environment : List (String × String)} {layered : Table}
    (places : ∀ entry ∈ environment, ∀ others, keysOf? entry.1.toList = some others →
      others = keys ∨ Apart keys others)
    (read : layer environment = .ok layered) : Clear keys layered :=
  clear_layerFrom (Table.clear_nil keys) places read

/-- Variables whose keys lead elsewhere leave a difference as it is. -/
theorem putInto_layerFrom {value : Value} {keys : List String} {environment : List (String × String)}
    {table grown : Table} (changed : PutAt value keys table grown)
    (elsewhere : ∀ entry ∈ environment, Elsewhere keys entry) :
    PutInto value keys (layerFrom table environment) (layerFrom grown environment) := by
  induction environment generalizing table grown with
  | nil => exact changed
  | cons entry rest inductionHypothesis =>
    obtain ⟨name, raw⟩ := entry
    have later : ∀ entry ∈ rest, Elsewhere keys entry :=
      fun entry member => elsewhere entry (List.mem_cons_of_mem _ member)
    cases named : keysOf? name.toList with
    | none => simpa only [layerFrom, named] using inductionHypothesis changed later
    | some others =>
      have step := putInto_insert changed (Value.ofText raw)
        (elsewhere (name, raw) List.mem_cons_self others named)
      simp only [layerFrom, named]
      revert step
      rcases insert (Value.ofText raw) others table with fault | next <;>
        rcases insert (Value.ofText raw) others grown with other | nextGrown <;> intro step
      · exact step
      · exact step.elim
      · exact step.elim
      · exact inductionHypothesis step later

/-- A variable among others whose keys lead elsewhere puts its value into the layer of the others. -/
theorem putInto_layer {name raw : String} {keys : List String} {before after : List (String × String)}
    (named : keysOf? name.toList = some keys) (led : keys ≠ [])
    (elsewhere : ∀ entry ∈ before ++ after, Elsewhere keys entry) :
    PutInto (Value.ofText raw) keys (layer (before ++ after))
      (layer (before ++ (name, raw) :: after)) := by
  simp only [layer, layerFrom_append]
  cases read : layerFrom [] before with
  | error fault => rfl
  | ok table =>
    have clear : Clear keys table :=
      clear_layer (fun entry member others given =>
        .inr (elsewhere entry (List.mem_append_left _ member) others given)) read
    obtain ⟨grown, inserted⟩ := insert_of_clear (Value.ofText raw) led clear
    have changed : PutAt (Value.ofText raw) keys table grown := putAt_of_insert led inserted
    simp only [bind, Except.bind, layerFrom, named, inserted]
    exact putInto_layerFrom changed fun entry member => elsewhere entry (List.mem_append_right _ member)

end Environment

end ComLayout
