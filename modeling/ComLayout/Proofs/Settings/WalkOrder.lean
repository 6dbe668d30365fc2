import ComLayout.Proofs.Settings.EnvironmentLayer
import ComLayout.Proofs.Value.LayerLaws

/-!
# The order of variables

Variables whose keys lead to different places, none of them on the way to another, can be read in any order. Each
finds a clear way, puts its value at the end of it and leaves all other ways as they are. So the layer holds the
value of each variable where its keys lead, and tables on the way there, but nothing else. Two tables that hold the
same values in the same places differ at most in the order of their keys.
-/

namespace ComLayout

/-- Values that differ at most in the order of the keys of their tables. -/
inductive Value.SameButOrder : Value → Value → Prop
  | plain {value : Value} (plain : value.isTable = false) : SameButOrder value value
  | table {entries others : Table} (absent : ∀ key, entries.lookup key = none ↔ others.lookup key = none)
      (same : ∀ key value other, entries.lookup key = some value → others.lookup key = some other →
        SameButOrder value other) : SameButOrder (.table entries) (.table others)

/-- A value below which nothing lies. -/
def Value.IsLeaf (value : Value) : Prop := ∀ key, value.get? key = none

/-- A value that is no table is a leaf. -/
theorem Value.isLeaf_of_plain {value : Value} (plain : value.isTable = false) : value.IsLeaf := by
  intro key
  cases value with
  | table entries => exact Bool.noConfusion plain
  | _ => rfl

namespace Table

variable {table : Table}

/-- A leaf has nothing where keys would lead on from it. -/
theorem at?_within_leaf {value : Value} (leaf : value.IsLeaf) (keys : List String) :
    at? keys (within (some value)) = none := by
  cases value with
  | table entries =>
    cases keys with
    | nil => rfl
    | cons key more =>
      cases found : at? (key :: more) entries with
      | none => rw [within, found]
      | some last =>
        obtain ⟨first, there⟩ := exists_lookup_of_at? found
        have nothing : entries.lookup key = none := leaf key
        simp [nothing] at there
  | _ => exact at?_nil keys

/-- Where keys lead to nothing, further keys do not. -/
theorem at?_append_of_none {front : List String} (nothing : at? front table = none) (filled : front ≠ [])
    (back : List String) : at? (front ++ back) table = none := by
  cases back with
  | nil => rwa [List.append_nil]
  | cons next more =>
    rw [at?_append filled (List.cons_ne_nil next more), nothing]
    exact at?_nil (next :: more)

/-- A table is proper after a proper value is put in it. -/
theorem proper_put {value : Value} (proper : (Value.table table).Proper) (key : String) (new : value.Proper) :
    (Value.table (put key value table)).Proper := by
  refine .table ((distinct_of_proper proper).put key value) fun other found there => ?_
  by_cases same : other = key
  · subst same
    rw [lookup_put, Option.some.injEq] at there
    exact there ▸ new
  · rw [lookup_put_of_ne key other value table same] at there
    exact proper_of_lookup proper there

/-- Tables differ at most in the order of their keys if keys lead to something in both of them or in neither, and
where it is no table, to the same. -/
theorem sameButOrder_of_at? {table other : Table} (proper : (Value.table table).Proper)
    (absent : ∀ keys, at? keys table = none ↔ at? keys other = none)
    (plain : ∀ keys value, value.isTable = false → (at? keys table = some value ↔ at? keys other = some value)) :
    (Value.table table).SameButOrder (.table other) := by
  generalize whole : Value.table table = value at proper
  induction proper generalizing table other with
  | plain single =>
    rw [← whole] at single
    exact Bool.noConfusion single
  | @table entries distinct inner inductionHypothesis =>
    obtain rfl := Value.table.inj whole
    refine .table (fun key => absent [key]) fun key value second first later => ?_
    have below {keys : List String} (more : keys ≠ []) :
        at? (key :: keys) table = at? keys (within (some value)) ∧
          at? (key :: keys) other = at? keys (within (some second)) := by
      rw [at?_cons key more, at?_cons key more, first, later]
      exact ⟨rfl, rfl⟩
    cases shape : value.isTable with
    | false =>
      obtain rfl : value = second := Option.some.inj (((plain [key] value shape).mp first).symm.trans later)
      exact .plain shape
    | true =>
      cases otherShape : second.isTable with
      | false =>
        obtain rfl : second = value :=
          Option.some.inj (((plain [key] second otherShape).mpr later).symm.trans first)
        exact .plain otherShape
      | true =>
        obtain ⟨lower, rfl⟩ : ∃ lower, value = .table lower := by
          cases value with
          | table lower => exact ⟨lower, rfl⟩
          | _ => exact Bool.noConfusion shape
        obtain ⟨upper, rfl⟩ : ∃ upper, second = .table upper := by
          cases second with
          | table upper => exact ⟨upper, rfl⟩
          | _ => exact Bool.noConfusion otherShape
        refine inductionHypothesis key _ first ?_ ?_ rfl
        · intro keys
          cases keys with
          | nil => simp [at?]
          | cons next more =>
            obtain ⟨inTable, inOther⟩ := below (List.cons_ne_nil next more)
            exact inTable ▸ inOther ▸ absent (key :: next :: more)
        · intro keys value shape
          cases keys with
          | nil => simp [at?]
          | cons next more =>
            obtain ⟨inTable, inOther⟩ := below (List.cons_ne_nil next more)
            exact inTable ▸ inOther ▸ plain (key :: next :: more) value shape

end Table

namespace Environment

open Table

/-- The name of a variable that gives a setting leads to at least one key. -/
theorem ne_nil_of_keysOf? {name : List Char} {keys : List String} (named : keysOf? name = some keys) :
    keys ≠ [] := by
  have pieces (cs : List Char) : splitDouble cs ≠ [] := by
    fun_cases splitDouble cs with
    | case1 => simp
    | case2 rest => simp
    | case3 c rest other => cases splitDouble rest <;> simp [Text.extendFirst]
  unfold keysOf? at named
  split at named
  next =>
    obtain rfl := Option.some.inj named
    simpa using pieces _
  next => simp at named

/-- The keys of no two variables that give settings lead to one place, or past each other. -/
def EachApart (environment : List (String × String)) : Prop :=
  environment.Pairwise fun entry other => ∀ keys others, keysOf? entry.1.toList = some keys →
    keysOf? other.1.toList = some others → Apart keys others

/-- A table that holds what variables give, tables on the way there, and nothing else. -/
structure Spells (environment : List (String × String)) (table : Table) : Prop where
  proper : (Value.table table).Proper
  given : ∀ entry ∈ environment, ∀ keys, keysOf? entry.1.toList = some keys →
    at? keys table = some (Value.ofText entry.2)
  owed : ∀ keys value, at? keys table = some value →
    ∃ entry ∈ environment, ∃ more, keysOf? entry.1.toList = some (keys ++ more)

/-- The table without entries holds what no variables give. -/
theorem spells_nil : Spells [] [] where
  proper := proper_nil
  given := by simp
  owed := by simp [at?_nil]

/-- A value that is put where keys lead leaves a table proper. -/
theorem proper_insert {value : Value} {keys : List String} {table grown : Table}
    (proper : (Value.table table).Proper) (new : value.Proper) (inserted : insert value keys table = .ok grown) :
    (Value.table grown).Proper := by
  induction keys generalizing table grown with
  | nil => exact Except.ok.inj inserted ▸ proper
  | cons key keys inductionHypothesis =>
    rw [insert_cons] at inserted
    obtain ⟨put, placed, rfl⟩ := (map_eq_ok _ _ _).mp inserted
    refine proper_put proper key ?_
    cases keys with
    | nil => exact Except.ok.inj placed ▸ new
    | cons next more =>
      rw [Environment.placed] at placed
      split at placed
      next =>
        obtain ⟨inner, below, rfl⟩ := (map_eq_ok _ _ _).mp placed
        exact inductionHypothesis (proper_within proper key) below
      next => simp at placed

section Spelled

variable {environment : List (String × String)} {table : Table}

/-- What is no table in such a table is the value of the variable whose keys lead there. -/
theorem Spells.exists_leaf (spells : Spells environment table) {keys : List String} {value : Value}
    (found : at? keys table = some value) (leaf : value.IsLeaf) :
    ∃ entry ∈ environment, keysOf? entry.1.toList = some keys ∧ value = Value.ofText entry.2 := by
  obtain ⟨entry, member, more, named⟩ := spells.owed keys value found
  have led := spells.given entry member _ named
  cases more with
  | nil =>
    rw [List.append_nil] at named led
    exact ⟨entry, member, named, Option.some.inj (found.symm.trans led)⟩
  | cons next rest =>
    rw [at?_append (ne_nil_of_at? found) (List.cons_ne_nil next rest), found, at?_within_leaf leaf] at led
    exact absurd led (Option.some_ne_none _).symm

/-- A variable whose keys lead elsewhere than those before it finds a clear way. -/
theorem Spells.clear (spells : Spells environment table) {keys : List String}
    (elsewhere : ∀ entry ∈ environment, Elsewhere keys entry) : Clear keys table := by
  refine clear_of_tables spells.proper ?_
  rintro front back value rfl filled found
  obtain ⟨entry, member, more, named⟩ := spells.owed front value found
  have apart : Apart (front ++ back) (front ++ more) := elsewhere entry member _ named
  have further : more ≠ [] := by
    rintro rfl
    exact apart.2 (by simp)
  exact isTable_of_at?_append further found (spells.given entry member _ named)

/-- A variable whose keys lead elsewhere than those before it puts its value in, and all else stays. Other keys lead
elsewhere, on the way of the new variable, or past its value, where there is nothing. -/
theorem Spells.insert (spells : Spells environment table) {name : String} {keys : List String}
    (named : keysOf? name.toList = some keys) (elsewhere : ∀ entry ∈ environment, Elsewhere keys entry)
    (raw : String) :
    ∃ grown, insert (Value.ofText raw) keys table = .ok grown ∧ Spells (environment ++ [(name, raw)]) grown := by
  have led : keys ≠ [] := ne_nil_of_keysOf? named
  obtain ⟨grown, inserted⟩ := insert_of_clear (Value.ofText raw) led (spells.clear elsewhere)
  have changed : PutAt (Value.ofText raw) keys table grown := putAt_of_insert led inserted
  refine ⟨grown, inserted, proper_insert spells.proper (.plain (Value.isTable_ofText raw)) inserted, ?given, ?owed⟩
  case given =>
    intro entry member others leads
    rcases List.mem_append.mp member with before | new
    · rw [changed.at?_apart (elsewhere entry before others leads)]
      exact spells.given entry before others leads
    · obtain rfl := List.mem_singleton.mp new
      obtain rfl := Option.some.inj (named.symm.trans leads)
      exact changed.at?_self
  case owed =>
    intro others value found
    have here : (name, raw) ∈ environment ++ [(name, raw)] := by simp
    by_cases onTheWay : others <+: keys
    · obtain ⟨more, rfl⟩ := onTheWay
      exact ⟨_, here, more, named⟩
    · by_cases past : keys <+: others
      · obtain ⟨more, rfl⟩ := past
        have further : more ≠ [] := by
          rintro rfl
          exact onTheWay (by simp)
        have shape := isTable_of_at?_append further changed.at?_self found
        rw [Value.isTable_ofText] at shape
        exact Bool.noConfusion shape
      · rw [changed.at?_apart ⟨past, onTheWay⟩] at found
        obtain ⟨entry, member, leads⟩ := spells.owed others value found
        exact ⟨entry, List.mem_append_left _ member, leads⟩

/-- Further variables put their values in one after the other. After one that gives no setting the table holds what
the variables up to it give. -/
theorem Spells.layerFrom {further : List (String × String)} (spells : Spells environment table)
    (apart : EachApart (environment ++ further)) :
    ∃ layered, layerFrom table further = .ok layered ∧ Spells (environment ++ further) layered := by
  induction further generalizing environment table with
  | nil => exact ⟨table, rfl, by rwa [List.append_nil]⟩
  | cons entry rest inductionHypothesis =>
    obtain ⟨name, raw⟩ := entry
    have around : environment ++ (name, raw) :: rest = environment ++ [(name, raw)] ++ rest := by simp
    rw [around] at apart ⊢
    rw [Environment.layerFrom]
    cases named : keysOf? name.toList with
    | none =>
      refine inductionHypothesis ⟨spells.proper, fun entry member keys leads => ?_, fun keys value found => ?_⟩ apart
      · rcases List.mem_append.mp member with before | new
        · exact spells.given entry before keys leads
        · obtain rfl := List.mem_singleton.mp new
          simp [named] at leads
      · obtain ⟨entry, member, leads⟩ := spells.owed keys value found
        exact ⟨entry, List.mem_append_left _ member, leads⟩
    | some keys =>
      have elsewhere : ∀ entry ∈ environment, Elsewhere keys entry := by
        intro entry member others leads
        have before := (List.pairwise_append.mp (List.pairwise_append.mp apart).1).2.2
        exact (before entry member (name, raw) (List.mem_singleton_self _) others keys leads named).symm
      obtain ⟨grown, inserted, spelled⟩ := spells.insert named elsewhere raw
      obtain ⟨layered, read, whole⟩ := inductionHypothesis spelled apart
      exact ⟨layered, by simpa [inserted, bind, Except.bind] using read, whole⟩

/-- Tables that hold what the same variables give differ at most in the order of their keys. -/
theorem Spells.sameButOrder {again : List (String × String)} {other : Table} (spells : Spells environment table)
    (spelled : Spells again other) (same : ∀ entry, entry ∈ again ↔ entry ∈ environment) :
    (Value.table table).SameButOrder (.table other) := by
  have onward {first second : List (String × String)} {lower upper : Table} (below : Spells first lower)
      (above : Spells second upper) (among : ∀ entry ∈ first, entry ∈ second) {keys : List String}
      (nothing : at? keys upper = none) : at? keys lower = none := by
    cases found : at? keys lower with
    | none => rfl
    | some value =>
      obtain ⟨entry, member, more, named⟩ := below.owed keys value found
      have led := above.given entry (among entry member) _ named
      rw [at?_append_of_none nothing (ne_nil_of_at? found)] at led
      exact absurd led (Option.some_ne_none _).symm
  have equal {first second : List (String × String)} {lower upper : Table} (below : Spells first lower)
      (above : Spells second upper) (among : ∀ entry ∈ first, entry ∈ second) {keys : List String} {value : Value}
      (plain : value.isTable = false) (found : at? keys lower = some value) : at? keys upper = some value := by
    obtain ⟨entry, member, named, rfl⟩ := below.exists_leaf found (Value.isLeaf_of_plain plain)
    exact above.given entry (among entry member) keys named
  have forth : ∀ entry ∈ environment, entry ∈ again := fun entry => (same entry).mpr
  have back : ∀ entry ∈ again, entry ∈ environment := fun entry => (same entry).mp
  refine sameButOrder_of_at? spells.proper (fun keys => ?_) fun keys value plain => ?_
  · exact ⟨onward spelled spells back, onward spells spelled forth⟩
  · exact ⟨equal spells spelled forth plain, equal spelled spells back plain⟩

end Spelled

/-- Whether the keys of all variables lead to different places does not depend on their order. -/
theorem EachApart.perm {environment again : List (String × String)} (apart : EachApart environment)
    (same : again.Perm environment) : EachApart again := by
  refine (same.pairwise_iff ?_).mpr apart
  intro entry other apart keys others named leads
  exact (apart others keys leads named).symm

/-- Variables whose keys lead to different places give one layer in whatever order they are read.

None of them is refused. The leaves of the layer, which are the values below which nothing lies, are the values of the
variables where their keys lead. In another order the variables give a layer that differs at most in the order of its
keys.

A table spells some variables if each value stands where its keys lead and nothing else is there. This holds of the
empty table and is kept by each variable that is put in, for its keys lead neither through nor past those of another,
so by induction it holds of the layer. Two tables that spell the same variables are the same but for order. -/
theorem layer_in_any_order {environment : List (String × String)} (apart : EachApart environment) :
    ∃ table, layer environment = .ok table ∧ (Value.table table).Proper ∧
      (∀ keys value, at? keys table = some value ∧ value.IsLeaf ↔
        ∃ name raw, (name, raw) ∈ environment ∧ keysOf? name.toList = some keys ∧ value = Value.ofText raw) ∧
      ∀ again, again.Perm environment → ∃ other, layer again = .ok other ∧ (Value.table other).Proper ∧
        (Value.table table).SameButOrder (.table other) := by
  obtain ⟨table, read, spells⟩ := spells_nil.layerFrom apart
  refine ⟨table, read, spells.proper, fun keys value => ⟨?_, ?_⟩, fun again same => ?_⟩
  · rintro ⟨found, leaf⟩
    obtain ⟨⟨name, raw⟩, member, named, rfl⟩ := spells.exists_leaf found leaf
    exact ⟨name, raw, member, named, rfl⟩
  · rintro ⟨name, raw, member, named, rfl⟩
    exact ⟨spells.given (name, raw) member keys named, Value.isLeaf_of_plain (Value.isTable_ofText raw)⟩
  · obtain ⟨other, readAgain, spelled⟩ := spells_nil.layerFrom (apart.perm same)
    exact ⟨other, readAgain, spelled.proper, spells.sameButOrder spelled fun entry => same.mem_iff⟩

/-- Variables for two sections, beside one of another program. -/
def sectionVariables : List (String × String) :=
  [("VTABSCAN_OUTPUT__OUT_DIR", "b"), ("HOME", "home"), ("VTABSCAN_LOOKUP__RECURSE", "true"),
    ("VTABSCAN_OUTPUT__OVERWRITE", "1")]

/-- Read backwards, the variables give the sections and their keys in another order. -/
theorem sections_in_any_order :
    layer sectionVariables = .ok [("output", .table [("out_dir", .text "b"), ("overwrite", .int 1)]),
        ("lookup", .table [("recurse", .bool true)])] ∧
      layer sectionVariables.reverse = .ok [("output", .table [("overwrite", .int 1), ("out_dir", .text "b")]),
        ("lookup", .table [("recurse", .bool true)])] ∧
      (Value.table [("output", .table [("out_dir", .text "b"), ("overwrite", .int 1)]),
        ("lookup", .table [("recurse", .bool true)])]).SameButOrder
          (.table [("output", .table [("overwrite", .int 1), ("out_dir", .text "b")]),
            ("lookup", .table [("recurse", .bool true)])]) := by
  have keys : sectionVariables.map (fun entry => keysOf? entry.1.toList) =
      [some ["output", "out_dir"], none, some ["lookup", "recurse"], some ["output", "overwrite"]] := by
    decide +kernel
  have apart : EachApart sectionVariables := by
    have among := List.pairwise_map (f := fun entry : String × String => keysOf? entry.1.toList)
      (R := fun keys others => ∀ first second, keys = some first → others = some second → Apart first second)
      (l := sectionVariables)
    refine among.mp ?_
    rw [keys]
    simp [List.pairwise_cons, Apart, List.cons_prefix_cons]
  have read : layer sectionVariables = .ok [("output", .table [("out_dir", .text "b"), ("overwrite", .int 1)]),
      ("lookup", .table [("recurse", .bool true)])] := by rfl
  have backwards : layer sectionVariables.reverse =
      .ok [("output", .table [("overwrite", .int 1), ("out_dir", .text "b")]),
        ("lookup", .table [("recurse", .bool true)])] := by rfl
  obtain ⟨table, readAgain, -, -, order⟩ := layer_in_any_order apart
  obtain rfl := Except.ok.inj (read.symm.trans readAgain)
  obtain ⟨other, readBackwards, -, same⟩ := order _ sectionVariables.reverse_perm
  obtain rfl := Except.ok.inj (backwards.symm.trans readBackwards)
  exact ⟨read, backwards, same⟩

end Environment

end ComLayout
